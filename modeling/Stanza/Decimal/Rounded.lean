import Stanza.Decimal.Layout

/-!
# Rounded decimals

Decimals with a given number of places or of digits, rounded from the exact binary value; a half goes to
the even neighbour.
-/

namespace Stanza.Decimal

/-- The integer nearest to `x`, the even one of two. -/
def Ratio.round (x : Ratio) : Nat :=
  let below := x.num / x.den
  let rest := x.num % x.den
  if 2 * rest < x.den ∨ (2 * rest = x.den ∧ below % 2 = 0) then below else below + 1

/-- The value of a double without its sign; `none` for infinities and what is not a number. -/
def Parts.ratio? : Parts → Option Ratio
  | .zero _ => some ⟨0, 1⟩
  | .finite _ m q => some (.ofBinary m q)
  | .infinite _ | .notANumber => none

def Parts.negative : Parts → Bool
  | .zero n | .infinite n | .finite n _ _ => n
  | .notANumber => false

def fixedText (x : Ratio) (places : Nat) (alternate : Bool) : List Char :=
  let ds := Nat.toDigits 10 (x.shift places).round
  let ds := padLeft (places + 1) ds
  let whole := ds.take (ds.length - places)
  let fraction := ds.drop (ds.length - places)
  if places = 0 ∧ ¬alternate then whole else whole ++ '.' :: fraction

def roundedDigits (x : Ratio) (n : Nat) : Digits :=
  if x.num = 0 then ⟨List.replicate n 0, 1⟩
  else
    let point := x.magnitude
    let ds := digitsOf (x.shift (n - point)).round
    if ds.length > n then ⟨ds.take n, point + 1⟩ else ⟨ds, point⟩

def scientificText (x : Ratio) (places : Nat) (alternate : Bool) : List Char :=
  let d := roundedDigits x (places + 1)
  let mantissa := match digitText d.digits with
    | [] => []
    | [c] => if alternate then [c, '.'] else [c]
    | c :: rest => c :: '.' :: rest
  mantissa ++ exponentText 2 (d.point - 1)

def dropTrailingZeros (ds : List Nat) : List Nat := (ds.reverse.dropWhile (· == 0)).reverse

/-- `x` with `n` significant digits, positional unless its exponent is under -4 or at least `n`. Trailing
zeros are dropped unless `alternate`. -/
def generalText (x : Ratio) (n : Nat) (alternate : Bool) : List Char :=
  let n := max n 1
  let d := roundedDigits x n
  let kept := if alternate then d.digits else match dropTrailingZeros d.digits with
    | [] => [0]
    | ds => ds
  if -4 ≤ d.point - 1 ∧ d.point - 1 < n then
    let text := positional ⟨-4, n, 2, false⟩ ⟨kept, d.point⟩
    if alternate ∧ ¬text.contains '.' then text ++ ['.'] else text
  else
    let mantissa := match digitText kept with
      | [] => []
      | [c] => if alternate then [c, '.'] else [c]
      | c :: rest => c :: '.' :: rest
    mantissa ++ exponentText 2 (d.point - 1)

end Stanza.Decimal
