import Stanza.Text.Literal
import Stanza.Value.Text

/-!
# Bytes and sets in YAML

Bytes are written in base 64. Neither bytes nor sets are looked into once they have been read.
-/

namespace Stanza.Yaml

def sixtyFourth? (c : Char) : Option Nat :=
  if c.isUpper then some (c.toNat - 'A'.toNat)
  else if c.isLower then some (c.toNat - 'a'.toNat + 26)
  else if c.isDigit then some (c.toNat - '0'.toNat + 52)
  else if c == '+' then some 62
  else if c == '/' then some 63
  else none

/-- The bytes of a text after `place` digits of a group of four, of which `left` is not yet part of a byte, and `pads`
equals signs. Other characters are passed over, and nothing is read after a group that is filled up. -/
def bytesFrom (place left pads : Nat) : List Char → Option (List Nat)
  | [] => if place = 0 then some [] else none
  | c :: rest =>
    if c == '=' then
      if 2 ≤ place ∧ 4 ≤ place + pads + 1 then some [] else bytesFrom place left (if 2 ≤ place then pads + 1 else pads) rest
    else
      match sixtyFourth? c with
      | none => bytesFrom place left pads rest
      | some d =>
        match place with
        | 0 => bytesFrom 1 d 0 rest
        | 1 => ((left * 4 + d / 16) :: ·) <$> bytesFrom 2 (d % 16) 0 rest
        | 2 => ((left * 16 + d / 4) :: ·) <$> bytesFrom 3 (d % 4) 0 rest
        | _ => ((left * 64 + d) :: ·) <$> bytesFrom 0 0 0 rest

def bytes? (text : String) : Option (List Nat) :=
  if text.toList.all (·.toNat < 0x80) then bytesFrom 0 0 0 text.toList else none

def byteLiteral (quote : Char) (n : Nat) : List Char :=
  if 0x7f ≤ n then '\\' :: 'x' :: Text.hexDigits 2 n else Text.literalChar quote (Char.ofNat n)

def bytesLiteral (bytes : List Nat) : String :=
  let quote := Text.literalQuote (bytes.map Char.ofNat)
  String.ofList ('b' :: quote :: bytes.flatMap (byteLiteral quote) ++ [quote])

def bytesValue (bytes : List Nat) : Value :=
  .foreign { typeName := "bytes", isTrue := !bytes.isEmpty, isHashable := true, literal? := some (bytesLiteral bytes) }

/-- A set shows its members in the order in which they were first written. -/
def setValue (members : List Value) : Value :=
  .foreign {
    typeName := "set"
    isTrue := !members.isEmpty
    isHashable := false
    literal? := if members.isEmpty then some "set()"
      else (Value.literals members).toOption.map fun texts => "\x7b" ++ Value.commaSeparated texts ++ "\x7d" }

end Stanza.Yaml
