import Stanza.Time.Period

/-!
# Periods as text

Blocks of a number and a unit, longest unit first and none twice. Zero units are left out in writing,
and the empty period is written `0s`.
-/

namespace Stanza.Period

def unitOf? : Char → Option PeriodUnit
  | 'd' => some .days
  | 'h' => some .hours
  | 'm' => some .minutes
  | 's' => some .seconds
  | _ => none

structure Block where
  digits : List Nat
  unit : PeriodUnit

/-- Puts a block before later ones, if its number has a digit and its unit at least the given rank. `digits`
holds the number, last digit first. -/
def closeBlock? (rank : Nat) (digits : List Nat) (unit : PeriodUnit) (later : Option (List Block)) :
    Option (List Block) :=
  if digits.isEmpty || unit.rank < rank then none else (⟨digits.reverse, unit⟩ :: ·) <$> later

/-- Reads blocks whose units have at least the given rank, each after the one before it. `digits` holds the
number begun, last digit first. An `m` before an `s` is not a minute. -/
def readBlocks? (rank : Nat) (digits : List Nat) : List Char → Option (List Block)
  | [] => if digits.isEmpty then some [] else none
  | 'm' :: 's' :: rest => closeBlock? rank digits .millis (readBlocks? (PeriodUnit.millis.rank + 1) [] rest)
  | c :: rest =>
    match Text.digitValue? c, unitOf? c with
    | some d, _ => readBlocks? rank (d :: digits) rest
    | none, some unit => closeBlock? rank digits unit (readBlocks? (unit.rank + 1) [] rest)
    | none, none => none
termination_by structural cs => cs

def ofBlocks (blocks : List Block) : Except Text.DigitLimitError Period :=
  blocks.foldlM (fun p b => (p.set · b.unit) <$> Text.readDigits b.digits) {}

def read? (cs : List Char) : Option (Except Text.DigitLimitError Period) :=
  match readBlocks? 0 [] (Text.trim cs) with
  | some [] | none => none
  | some blocks => some (ofBlocks blocks)

def writeBlock (p : Period) (unit : PeriodUnit) : Except Text.DigitLimitError (List Char) :=
  match p.get unit with
  | 0 => .ok []
  | n => (fun digits => digits.toList ++ unit.symbol) <$> Text.writeInteger n

def write (p : Period) : Except Text.DigitLimitError String := do
  let blocks ← PeriodUnit.all.mapM (writeBlock p)
  return match blocks.flatten with
    | [] => "0s"
    | cs => String.ofList cs

end Stanza.Period
