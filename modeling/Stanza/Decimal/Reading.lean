import Stanza.Text.Integer

/-!
# Reading decimals

A decimal is rounded to the nearest double, ties to even. Far outside the range of doubles the result
is known without the arithmetic.
-/

namespace Stanza.Decimal

/-- `± digits * 10 ^ exponent` as a double. -/
def toDouble (negative : Bool) (digits : List Nat) (exponent : Int) : Float :=
  let ds := digits.dropWhile (· == 0)
  let size := (ds.length : Int) + exponent
  let x : Float :=
    if ds.isEmpty ∨ size < -400 then 0.0
    else if size > 400 then 1.0 / 0.0
    else
      let m := Text.natOfDigits 10 ds
      if 0 ≤ exponent then Float.ofScientific m false exponent.toNat
      else Float.ofScientific m true (-exponent).toNat
  if negative then -x else x

structure Mantissa where
  digits : List Nat
  places : Nat

/-- Digits with at most one point among them, and at least one digit. -/
def readMantissa? (cs : List Char) : Option Mantissa := do
  let whole := cs.takeWhile (· != '.')
  let fraction := (cs.dropWhile (· != '.')).drop 1
  if whole.isEmpty && fraction.isEmpty then none
  let ds ← (whole ++ fraction).mapM Text.digitValue?
  return ⟨ds, fraction.length⟩

def readExponent? (cs : List Char) : Option Int :=
  let (negative, digits) := Text.splitSign cs
  (Text.allDigits? digits).map fun ds => Text.signed negative (Text.natOfDigits 10 ds)

def readNumber? (cs : List Char) : Option Float := do
  let (negative, rest) := Text.splitSign cs
  let isMark (c : Char) : Bool := c == 'e' || c == 'E'
  let mantissa ← readMantissa? (rest.takeWhile (!isMark ·))
  let exponent ← match rest.dropWhile (!isMark ·) with
    | [] => some 0
    | _ :: e => readExponent? e
  return toDouble negative mantissa.digits (exponent - mantissa.places)

def readDouble? (cs : List Char) : Option Float :=
  let (negative, rest) := Text.splitSign cs
  match String.ofList (rest.map Char.toLower) with
  | "inf" | "infinity" => some (if negative then -1.0 / 0.0 else 1.0 / 0.0)
  | "nan" => some (0.0 / 0.0)
  | _ => readNumber? cs

end Stanza.Decimal
