/-!
# Shortest decimals

A finite binary number is `m * 2 ^ q`. The reals nearer to it than to its neighbours form an interval,
whose ends belong to it when `m` is even. Of the decimals with the fewest digits in that interval the
nearest to the number is taken, and the even one of two equally near.
-/

namespace Stanza.Decimal

structure Ratio where
  num : Nat
  den : Nat

def Ratio.shift (x : Ratio) (k : Int) : Ratio :=
  if 0 ≤ k then { x with num := x.num * Nat.pow 10 k.toNat } else { x with den := x.den * Nat.pow 10 (-k).toNat }

def Ratio.ofBinary (m : Nat) (q : Int) : Ratio :=
  if 0 ≤ q then ⟨m <<< q.toNat, 1⟩ else ⟨m, 1 <<< (-q).toNat⟩

def Ratio.compare (x y : Ratio) : Ordering := Ord.compare (x.num * y.den) (y.num * x.den)

def digitCount (n : Nat) : Nat := (Nat.toDigits 10 n).length

/-- The `e` with `10 ^ (e - 1) ≤ x < 10 ^ e`. -/
def Ratio.magnitude (x : Ratio) : Int :=
  let guess : Int := digitCount x.num - digitCount x.den
  if (x.shift (-guess)).compare ⟨1, 1⟩ = .lt then guess else guess + 1

structure Interval where
  lo : Ratio
  hi : Ratio
  closed : Bool

def Interval.contains (i : Interval) (x : Ratio) : Bool :=
  if i.closed then i.lo.compare x != .gt && x.compare i.hi != .gt
  else i.lo.compare x == .lt && x.compare i.hi == .lt

/-- The interval of `m * 2 ^ q`; below a power of two the neighbour is twice as near. -/
def Interval.around (m : Nat) (q : Int) (nearBelow : Bool) : Interval where
  lo := if nearBelow then .ofBinary (4 * m - 1) (q - 2) else .ofBinary (2 * m - 1) (q - 1)
  hi := .ofBinary (2 * m + 1) (q - 1)
  closed := m % 2 == 0

/-- The decimal `0.d₁d₂…dₙ * 10 ^ point`. -/
structure Digits where
  digits : List Nat
  point : Int

def digitsOf (n : Nat) : List Nat := (Nat.toDigits 10 n).map fun c => c.toNat - '0'.toNat

def neighbours (x : Ratio) (point : Int) (n : Nat) : List Nat :=
  let scaled := x.shift (n - point)
  let below := scaled.num / scaled.den
  let rest := scaled.num % scaled.den
  if 2 * rest < scaled.den ∨ (2 * rest = scaled.den ∧ below % 2 = 0) then [below, below + 1]
  else [below + 1, below]

/-- The first grid, from `n` digits on, with a point in the interval. A point that has one digit more is a
power of ten, and its last digit is left out. -/
def shortestFrom (i : Interval) (x : Ratio) (point : Int) (n : Nat) : Nat → Digits
  | 0 => ⟨digitsOf ((neighbours x point n).headD 0), point⟩
  | fuel + 1 =>
    match (neighbours x point n).find? fun d => i.contains ((Ratio.mk d 1).shift (point - n)) with
    | some d => ⟨(digitsOf d).take n, point + (digitCount d - n : Int)⟩
    | none => shortestFrom i x point (n + 1) fuel

/-- Seventeen digits always suffice for a 53-bit number. -/
def shortest (m : Nat) (q : Int) (nearBelow : Bool) : Digits :=
  let x := Ratio.ofBinary m q
  shortestFrom (.around m q nearBelow) x x.magnitude 1 17

/-- A double taken apart: zeros, infinities and what is not a number aside, it is `± m * 2 ^ q`. -/
inductive Parts where
  | zero (negative : Bool)
  | infinite (negative : Bool)
  | notANumber
  | finite (negative : Bool) (m : Nat) (q : Int)

def hiddenBit : Nat := 0x10000000000000

def Parts.ofFloat (x : Float) : Parts :=
  let bits := x.toBits.toNat
  let negative := bits >>> 63 == 1
  let exponent : Nat := bits / hiddenBit % 2048
  let fraction : Nat := bits % hiddenBit
  if exponent = 2047 then (if fraction = 0 then .infinite negative else .notANumber)
  else if exponent = 0 then (if fraction = 0 then .zero negative else .finite negative fraction (-1074))
  else .finite negative (fraction + hiddenBit) ((exponent : Int) - 1075)

def shortestDouble (m : Nat) (q : Int) : Digits :=
  shortest m q (m == hiddenBit && q > -1074)

end Stanza.Decimal
