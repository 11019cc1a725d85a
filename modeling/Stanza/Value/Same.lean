import Stanza.Value.Basic

/-!
# Sameness of values

Numbers are compared by value whatever their type, with the truth values as 0 and 1. Lists and tuples are
compared item by item and mappings by their entries in any order.
-/

namespace Stanza.Value

inductive Number where
  | exact (n : Int)
  | double (x : Float)

def number? : Value → Option Number
  | .bool b => some (.exact (if b then 1 else 0))
  | .int n => some (.exact n)
  | .float x => some (.double x)
  | _ => none

def doubleIs (x : Float) (n : Int) : Bool :=
  match Decimal.Parts.ofFloat x with
  | .zero _ => n == 0
  | .finite negative m q =>
    let r := Decimal.Ratio.ofBinary m q
    (n < 0) == negative && r.num == n.natAbs * r.den
  | .infinite _ | .notANumber => false

def Number.same : Number → Number → Bool
  | .exact m, .exact n => m == n
  | .exact n, .double x | .double x, .exact n => doubleIs x n
  | .double x, .double y => x == y

mutual

def same : Value → Value → Bool
  | .null, .null => true
  | .text s, .text t => s == t
  | .list xs, .list ys => sameItems xs ys
  | .tuple xs, .tuple ys => sameItems xs ys
  | .map es, .map fs => es.length == fs.length && sameEntries es fs
  | .period p, .period q => p == q
  | .span s, .span t => s.micros == t.micros
  | .path p, .path q => p == q
  | .moment m, .moment n => m.same n
  | .foreign x, .foreign y => x == y
  | x, y =>
    match x.number?, y.number? with
    | some m, some n => m.same n
    | _, _ => false
termination_by structural x => x

def sameItems : List Value → List Value → Bool
  | [], [] => true
  | x :: xs, y :: ys => x.same y && sameItems xs ys
  | _, _ => false
termination_by structural xs => xs

def sameEntries : List (Value × Value) → List (Value × Value) → Bool
  | [], _ => true
  | (k, v) :: es, fs => fs.any (fun (l, w) => k.same l && v.same w) && sameEntries es fs
termination_by structural es => es

end

end Stanza.Value
