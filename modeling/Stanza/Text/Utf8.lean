import Stanza.Text.Literal

/-!
# UTF-8

Decoding of bytes, in the shortest-form encoding without surrogates. The first fault is reported with
the position and length of the ill-formed sequence: the longest prefix that could still have
become a character, or one byte.
-/

namespace Stanza.Text

inductive Utf8Flaw where
  | invalidStart
  | invalidContinuation
  | unexpectedEnd

structure Utf8Error where
  flaw : Utf8Flaw
  /-- Where the ill-formed sequence starts. -/
  position : Nat
  /-- How many bytes it has. -/
  length : Nat
  /-- Its first byte. -/
  byte : Nat

def Utf8Flaw.reason : Utf8Flaw → String
  | .invalidStart => "invalid start byte"
  | .invalidContinuation => "invalid continuation byte"
  | .unexpectedEnd => "unexpected end of data"

def Utf8Error.message (e : Utf8Error) : String :=
  if e.length = 1 then
    "'utf-8' codec can't decode byte 0x" ++ String.ofList (hexDigits 2 e.byte) ++ " in position "
      ++ toString e.position ++ ": " ++ e.flaw.reason
  else
    "'utf-8' codec can't decode bytes in position " ++ toString e.position ++ "-"
      ++ toString (e.position + e.length - 1) ++ ": " ++ e.flaw.reason

/-- For a first byte: the number of bytes that follow it, its payload, and the range that the second
byte has to be in. -/
def utf8Lead (b : Nat) : Option (Nat × Nat × Nat × Nat) :=
  if 0xc2 ≤ b ∧ b ≤ 0xdf then some (1, b - 0xc0, 0x80, 0xbf)
  else if b = 0xe0 then some (2, 0, 0xa0, 0xbf)
  else if b = 0xed then some (2, 0xd, 0x80, 0x9f)
  else if 0xe1 ≤ b ∧ b ≤ 0xef then some (2, b - 0xe0, 0x80, 0xbf)
  else if b = 0xf0 then some (3, 0, 0x90, 0xbf)
  else if b = 0xf4 then some (3, 4, 0x80, 0x8f)
  else if 0xf1 ≤ b ∧ b ≤ 0xf3 then some (3, b - 0xf0, 0x80, 0xbf)
  else none

/-- A character under construction: the value so far, the bytes still to come, the range of the next
one, and the bytes already seen (the first of them last). -/
structure Utf8Partial where
  value : Nat
  missing : Nat
  lo : Nat
  hi : Nat
  start : Nat
  first : Nat
  seen : Nat

def utf8Fault (p : Utf8Partial) (flaw : Utf8Flaw) : Utf8Error :=
  { flaw, position := p.start, length := p.seen, byte := p.first }

def decodeUtf8From (i : Nat) : Option Utf8Partial → List UInt8 → List Char × Option Utf8Error
  | none, [] => ([], none)
  | some p, [] => ([], some (utf8Fault p .unexpectedEnd))
  | none, b :: rest =>
    if b.toNat < 0x80 then
      let (cs, e) := decodeUtf8From (i + 1) none rest
      (Char.ofNat b.toNat :: cs, e)
    else match utf8Lead b.toNat with
      | some (missing, value, lo, hi) =>
        decodeUtf8From (i + 1) (some ⟨value, missing, lo, hi, i, b.toNat, 1⟩) rest
      | none => ([], some { flaw := .invalidStart, position := i, length := 1, byte := b.toNat })
  | some p, b :: rest =>
    if p.lo ≤ b.toNat ∧ b.toNat ≤ p.hi then
      let value := p.value * 64 + (b.toNat - 0x80)
      if p.missing ≤ 1 then
        let (cs, e) := decodeUtf8From (i + 1) none rest
        (Char.ofNat value :: cs, e)
      else
        decodeUtf8From (i + 1)
          (some { p with value, missing := p.missing - 1, lo := 0x80, hi := 0xbf, seen := p.seen + 1 }) rest
    else ([], some (utf8Fault p .invalidContinuation))

def decodeUtf8 (bytes : List UInt8) : Except Utf8Error (List Char) :=
  match decodeUtf8From 0 none bytes with
  | (cs, none) => .ok cs
  | (_, some e) => .error e

def utf8BlockSize : Nat := 8192

/-- Decodes a stream block by block. A character cut by the end of a block is carried into the next one,
so positions count from the start of the carried bytes. Of a block with a fault nothing is decoded. -/
def decodeUtf8Blocks (carry : List UInt8) : List UInt8 → List Char × Option Utf8Error
  | [] => decodeUtf8From 0 none carry
  | b :: rest =>
    let block := carry ++ b :: rest.take (utf8BlockSize - 1)
    let later := rest.drop (utf8BlockSize - 1)
    match decodeUtf8From 0 none block with
    | (cs, none) =>
      let (more, e) := decodeUtf8Blocks [] later
      (cs ++ more, e)
    | (cs, some e) =>
      match e.flaw with
      | .unexpectedEnd =>
        let (more, e') := decodeUtf8Blocks (block.drop e.position) later
        (cs ++ more, e')
      | _ => ([], some e)
termination_by bytes => bytes.length
decreasing_by all_goals (rw [List.length_drop, List.length_cons]; omega)

def decodeUtf8Stream (bytes : List UInt8) : List Char × Option Utf8Error := decodeUtf8Blocks [] bytes

end Stanza.Text
