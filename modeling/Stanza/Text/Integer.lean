import Stanza.Text.Blank
import Stanza.Text.Word

/-!
# Integers as text

Digits of every script are read. A number of more than 4300 decimal digits is neither read nor written.
-/

namespace Stanza.Text

/-- The largest number of decimal digits that is converted. -/
def digitLimit : Nat := 4300

inductive DigitLimitError where
  | reading (digits : Nat)
  | writing
  deriving DecidableEq

def DigitLimitError.message : DigitLimitError → String
  | .reading n =>
    "Exceeds the limit (" ++ toString digitLimit ++ " digits) for integer string conversion: value has "
      ++ toString n ++ " digits; use sys.set_int_max_str_digits() to increase the limit"
  | .writing =>
    "Exceeds the limit (" ++ toString digitLimit ++ " digits) for integer string conversion; "
      ++ "use sys.set_int_max_str_digits() to increase the limit"

def natOfDigits (base : Nat) (ds : List Nat) : Nat := ds.foldl (fun n d => n * base + d) 0

def allDigits? (cs : List Char) : Option (List Nat) :=
  if cs.isEmpty then none else cs.mapM digitValue?

def readDigits (ds : List Nat) : Except DigitLimitError Nat :=
  if ds.length > digitLimit then .error (.reading ds.length) else .ok (natOfDigits 10 ds)

def splitSign : List Char → Bool × List Char
  | '-' :: rest => (true, rest)
  | '+' :: rest => (false, rest)
  | cs => (false, cs)

def signed (negative : Bool) (n : Nat) : Int := if negative then -(n : Int) else n

/-- A signed run of digits with blanks around it; `none` if the text is nothing of the kind. -/
def readInteger? (cs : List Char) : Option (Except DigitLimitError Int) :=
  let (negative, digits) := splitSign (trim cs)
  (allDigits? digits).map fun ds => signed negative <$> readDigits ds

def dropUnderscores? : List Char → Option (List Char)
  | [] => some []
  | ['_'] => none
  | '_' :: '_' :: _ => none
  | '_' :: rest => dropUnderscores? rest
  | c :: rest => (c :: ·) <$> dropUnderscores? rest

def readLooseInteger? (cs : List Char) : Option (Except DigitLimitError Int) :=
  let (negative, digits) := splitSign (trim cs)
  match digits with
  | '_' :: _ => none
  | _ => do
    let ds ← allDigits? (← dropUnderscores? digits)
    return signed negative <$> readDigits ds

def writeInteger (n : Int) : Except DigitLimitError String :=
  let digits := toString n.natAbs
  if digits.length > digitLimit then .error .writing
  else .ok (if n < 0 then "-" ++ digits else digits)

end Stanza.Text
