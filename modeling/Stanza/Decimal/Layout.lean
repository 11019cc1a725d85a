import Stanza.Decimal.Shortest

/-!
# Layout of decimals

Where the point stands and when an exponent is written.
-/

namespace Stanza.Decimal

structure Layout where
  /-- The least and the greatest power of ten of the first digit that are written without an exponent. -/
  least : Int
  greatest : Int
  /-- The least number of digits of an exponent. -/
  exponentWidth : Nat
  /-- Whether a whole number without an exponent gets `.0`. -/
  pointZero : Bool

def digitText (ds : List Nat) : List Char := ds.map Nat.digitChar

def zeros (n : Nat) : List Char := List.replicate n '0'

def padLeft (width : Nat) (cs : List Char) : List Char := zeros (width - cs.length) ++ cs

def exponentText (width : Nat) (e : Int) : List Char :=
  'e' :: (if e < 0 then '-' else '+') :: padLeft width (Nat.toDigits 10 e.natAbs)

def positional (layout : Layout) (d : Digits) : List Char :=
  let ds := digitText d.digits
  if d.point ≤ 0 then '0' :: '.' :: zeros (-d.point).toNat ++ ds
  else
    let n := d.point.toNat
    if ds.length ≤ n then ds ++ zeros (n - ds.length) ++ (if layout.pointZero then ['.', '0'] else [])
    else ds.take n ++ '.' :: ds.drop n

def exponential (layout : Layout) (d : Digits) : List Char :=
  let mantissa := match digitText d.digits with
    | [] => []
    | [c] => [c]
    | c :: rest => c :: '.' :: rest
  mantissa ++ exponentText layout.exponentWidth (d.point - 1)

def Layout.write (layout : Layout) (d : Digits) : List Char :=
  if layout.least ≤ d.point - 1 ∧ d.point - 1 ≤ layout.greatest then positional layout d
  else exponential layout d

def Layout.text (layout : Layout) (x : Float) : String :=
  let sign (negative : Bool) (cs : List Char) := String.ofList (if negative then '-' :: cs else cs)
  match Parts.ofFloat x with
  | .notANumber => "nan"
  | .infinite negative => sign negative ['i', 'n', 'f']
  | .zero negative => sign negative (if layout.pointZero then ['0', '.', '0'] else ['0'])
  | .finite negative m q => sign negative (layout.write (shortestDouble m q))

end Stanza.Decimal
