import Stanza.Pattern.Source
import Stanza.Pattern.Syntax

/-!
# Escapes in patterns

What a backslash and the characters after it stand for, inside and outside of a character set.
-/

namespace Stanza.Pattern

def isAsciiDigit (c : Char) : Bool := c.isDigit

def isOctalDigit (c : Char) : Bool := '0' ≤ c && c ≤ '7'

def isHexDigit (c : Char) : Bool := c.isDigit || ('a' ≤ c && c ≤ 'f') || ('A' ≤ c && c ≤ 'F')

def hexDigitValue (c : Char) : Nat :=
  if c.isDigit then c.toNat - '0'.toNat else c.toLower.toNat - 'a'.toNat + 10

def readHex (cs : List Char) : Nat := Text.natOfDigits 16 (cs.map hexDigitValue)

def readOctal (cs : List Char) : Nat := Text.natOfDigits 8 (cs.map hexDigitValue)

def namedEscape? : Char → Option Nat
  | 'a' => some 0x7
  | 'b' => some 0x8
  | 'f' => some 0xc
  | 'n' => some 0xa
  | 'r' => some 0xd
  | 't' => some 0x9
  | 'v' => some 0xb
  | '\\' => some 0x5c
  | _ => none

def category? : Char → Option Member
  | 'd' => some (.category .digit false)
  | 'D' => some (.category .digit true)
  | 's' => some (.category .blank false)
  | 'S' => some (.category .blank true)
  | 'w' => some (.category .word false)
  | 'W' => some (.category .word true)
  | _ => none

def anchor? : Char → Option Anchor
  | 'A' => some .textStart
  | 'b' => some .wordEdge
  | 'B' => some .noWordEdge
  | 'Z' => some .textEnd
  | _ => none

namespace Source

def failEscape (s : Source) (escape : List Char) : Except Error α :=
  s.fail (.badEscape (String.ofList escape)) escape.length

def hexEscape (s : Source) (c : Char) (count : Nat) : Except Error (Nat × Source) := do
  let (digits, s) ← s.takeWhile count isHexDigit
  let escape := '\\' :: c :: digits
  if digits.length < count then
    s.fail (.incompleteEscape (String.ofList escape)) escape.length
  else if readHex digits > 0x10ffff then s.failEscape escape
  else return (readHex digits, s)

/-- An escape by the name of the character; no name is known. -/
def nameEscape (s : Source) : Except Error (Nat × Source) := do
  let (opened, s) ← s.accept '{'
  if !opened then s.fail (.missing "\x7b") 0
  else
    let (name, s) ← s.takeUntil '}' "character name"
    s.fail (.unknownCharacter (Text.literal (String.ofList name))) (name.length + 4)

def octalValue (s : Source) (digits : List Char) : Except Error (Nat × Source) :=
  let escape := '\\' :: digits
  if readOctal digits > 0o377 then s.fail (.octalTooLarge (String.ofList escape)) escape.length
  else .ok (readOctal digits, s)

def charEscape (s : Source) (c : Char) : Except Error (Nat × Source) :=
  match c with
  | 'x' => s.hexEscape c 2
  | 'u' => s.hexEscape c 4
  | 'U' => s.hexEscape c 8
  | 'N' => s.nameEscape
  | c => if c.isAlpha || c.isDigit then s.failEscape ['\\', c] else .ok (c.toNat, s)

def setEscape (s : Source) (c : Char) : Except Error (Member × Source) := do
  if let some n := namedEscape? c then return (.char n, s)
  else if let some m := category? c then return (m, s)
  else if isOctalDigit c then
    let (more, s) ← s.takeWhile 2 isOctalDigit
    let (n, s) ← s.octalValue (c :: more)
    return (.char n, s)
  else
    let (n, s) ← s.charEscape c
    return (.char n, s)

def thirdOctal? (s : Source) (digits : List Char) : Option Char :=
  match s.next? with
  | some [d] => if digits.length == 2 && digits.all isOctalDigit && isOctalDigit d then some d else none
  | _ => none

def numberEscape (s : Source) (c : Char) : Except Error ((Nat ⊕ List Char) × Source) := do
  let (more, s) ← s.takeWhile 1 isAsciiDigit
  let digits := c :: more
  match s.thirdOctal? digits with
  | some d =>
    let s ← s.drop 1
    let (n, s) ← s.octalValue (digits ++ [d])
    return (.inl n, s)
  | none => return (.inr digits, s)

end Source

end Stanza.Pattern
