import Stanza.Decimal.Rounded
import Stanza.Value.Settings
import Stanza.Value.Text

/-!
# Message templates

A template holds fields such as `%s`, `%-5d` or `%(name)s` that are filled with values: one after the other,
or by name from a mapping. A template that its values do not fit has no text.
-/

namespace Stanza.Log.Template

structure Field where
  left : Bool := false
  plus : Bool := false
  blank : Bool := false
  alternate : Bool := false
  zero : Bool := false
  width : Nat := 0
  precision : Option Nat := none

/-- The values still to be filled in, and the mapping that names are looked up in. -/
structure Supply where
  queue : List Value
  names : Option Settings := none

def Supply.next? (s : Supply) : Option (Value × Supply) :=
  match s.queue with
  | [] => none
  | v :: rest => some (v, { s with queue := rest })

structure Numeral where
  negative : Bool
  mark : List Char := []
  body : List Char

def Field.sign (f : Field) (negative : Bool) : List Char :=
  if negative then ['-'] else if f.plus then ['+'] else if f.blank then [' '] else []

def Field.setText (f : Field) (cs : List Char) : List Char :=
  let cs := match f.precision with
    | some n => cs.take n
    | none => cs
  let pad := List.replicate (f.width - cs.length) ' '
  if f.left then cs ++ pad else pad ++ cs

def Field.setNumeral (f : Field) (n : Numeral) : List Char :=
  let front := f.sign n.negative ++ (if f.alternate then n.mark else [])
  let missing := f.width - (front.length + n.body.length)
  if f.left then front ++ n.body ++ List.replicate missing ' '
  else if f.zero then front ++ List.replicate missing '0' ++ n.body
  else List.replicate missing ' ' ++ front ++ n.body

/-- The integer of a number; fractions are cut off where `cut` allows it. -/
def integer? (cut : Bool) : Value → Option Int
  | .int n => some n
  | .bool b => some (if b then 1 else 0)
  | .float x =>
    if !cut then none
    else match Decimal.Parts.ofFloat x with
      | .zero _ => some 0
      | .finite negative m q =>
        let r := Decimal.Ratio.ofBinary m q
        some (if negative then -((r.num / r.den : Nat) : Int) else (r.num / r.den : Nat))
      | _ => none
  | _ => none

def double? : Value → Option Float
  | .float x => some x
  | .int n =>
    let x := Decimal.toDouble (n < 0) (Decimal.digitsOf n.natAbs) 0
    match Decimal.Parts.ofFloat x with
    | .infinite _ => none
    | _ => some x
  | .bool b => some (if b then 1.0 else 0.0)
  | _ => none

def Field.setInteger (f : Field) (base : Nat) (mark : List Char) (capital : Bool) (n : Int) :
    Option (List Char) := do
  let ds := Nat.toDigits base n.natAbs
  if base = 10 ∧ ds.length > Text.digitLimit then none
  let ds := Decimal.padLeft (f.precision.getD 0) ds
  let big (cs : List Char) : List Char := if capital then cs.map Char.toUpper else cs
  return f.setNumeral { negative := n < 0, mark := big mark, body := big ds }

def Field.setDouble (f : Field) (form : Char) (x : Float) : List Char :=
  let places := f.precision.getD 6
  let parts := Decimal.Parts.ofFloat x
  let body : List Char :=
    match parts.ratio? with
    | some r =>
      match form.toLower with
      | 'f' => Decimal.fixedText r places f.alternate
      | 'e' => Decimal.scientificText r places f.alternate
      | _ => Decimal.generalText r places f.alternate
    | none => match parts with
      | .notANumber => ['n', 'a', 'n']
      | _ => ['i', 'n', 'f']
  let body := if form.isUpper then body.map Char.toUpper else body
  f.setNumeral { negative := parts.negative, body }

def plainText? (v : Value) : Option (List Char) := v.display.toOption.map String.toList

def literalText? (v : Value) : Option (List Char) := v.literal.toOption.map String.toList

def asciiText (cs : List Char) : List Char :=
  cs.flatMap fun c =>
    if c.toNat < 0x80 then [c]
    else if c.toNat < 0x100 then '\\' :: 'x' :: Text.hexDigits 2 c.toNat
    else if c.toNat < 0x10000 then '\\' :: 'u' :: Text.hexDigits 4 c.toNat
    else '\\' :: 'U' :: Text.hexDigits 8 c.toNat

def char? : Value → Option (List Char)
  | .text s => if s.length = 1 then some s.toList else none
  | v => do
    let n ← integer? false v
    if 0 ≤ n ∧ n ≤ 0x10ffff then some [Char.ofNat n.toNat] else none

def Field.set (f : Field) (conversion : Char) (v : Value) : Option (List Char) :=
  match conversion with
  | 's' => f.setText <$> plainText? v
  | 'r' => f.setText <$> literalText? v
  | 'a' => (f.setText ∘ asciiText) <$> literalText? v
  | 'd' | 'i' | 'u' => integer? true v >>= f.setInteger 10 [] false
  | 'o' => integer? false v >>= f.setInteger 8 ['0', 'o'] false
  | 'x' => integer? false v >>= f.setInteger 16 ['0', 'x'] false
  | 'X' => integer? false v >>= f.setInteger 16 ['0', 'x'] true
  | 'e' | 'E' | 'f' | 'F' | 'g' | 'G' => f.setDouble conversion <$> double? v
  | 'c' => { f with precision := none }.setText <$> char? v
  | _ => none

def name? (depth : Nat) : List Char → Option (List Char × List Char)
  | [] => none
  | c :: rest =>
    if c == ')' && depth == 0 then some ([], rest)
    else do
      let (name, after) ← name? (if c == '(' then depth + 1 else if c == ')' then depth - 1 else depth) rest
      return (c :: name, after)

def named? (s : Supply) : List Char → Option (Supply × List Char)
  | '(' :: rest => do
    let names ← s.names
    let (name, after) ← name? 0 rest
    let v ← names.get? (String.ofList name)
    return ({ s with queue := [v] }, after)
  | cs => some (s, cs)

def flags (f : Field) : List Char → Field × List Char
  | '-' :: rest => flags { f with left := true } rest
  | '+' :: rest => flags { f with plus := true } rest
  | ' ' :: rest => flags { f with blank := true } rest
  | '#' :: rest => flags { f with alternate := true } rest
  | '0' :: rest => flags { f with zero := true } rest
  | cs => (f, cs)

def number (cs : List Char) : Nat × List Char :=
  (Text.natOfDigits 10 ((cs.takeWhile Char.isDigit).map fun c => c.toNat - '0'.toNat), cs.dropWhile Char.isDigit)

def measure? (s : Supply) : List Char → Option (Int × Supply × List Char)
  | '*' :: rest => do
    let (v, s) ← s.next?
    return (← integer? false v, s, rest)
  | cs => some ((number cs).1, s, (number cs).2)

def measureLimit : Nat := 0x7fffffff

def width? (f : Field) (s : Supply) (cs : List Char) : Option (Field × Supply × List Char) := do
  let (n, s, after) ← measure? s cs
  if n.natAbs > measureLimit then none
  return ({ f with left := f.left || n < 0, width := n.natAbs }, s, after)

def precision? (f : Field) (s : Supply) : List Char → Option (Field × Supply × List Char)
  | '.' :: rest => do
    let (n, s, after) ← measure? s rest
    if n.natAbs > measureLimit then none
    return ({ f with precision := some n.toNat }, s, after)
  | cs => some (f, s, cs)

def dropSize : List Char → List Char
  | c :: rest => if c == 'h' || c == 'l' || c == 'L' then rest else c :: rest
  | [] => []

def field? (s : Supply) (cs : List Char) : Option (List Char × Supply × List Char) := do
  let (s, cs) ← named? s cs
  let (f, cs) := flags {} cs
  let (f, s, cs) ← width? f s cs
  let (f, s, cs) ← precision? f s cs
  match dropSize cs with
  | [] => none
  | conversion :: rest =>
    let (v, s) ← s.next?
    return (← f.set conversion v, s, rest)

/-- Fills the fields of a text. Values that are not named are all used up. -/
def run (s : Supply) (cs : List Char) : Option (List Char) := do
  match cs with
  | [] => if s.queue.isEmpty || s.names.isSome then some [] else none
  | '%' :: '%' :: rest => return '%' :: (← run s rest)
  | '%' :: rest =>
    let (text, s, after) ← field? s rest
    if after.length ≤ rest.length then
      return text ++ (← run s after)
    else none
  | c :: rest => return c :: (← run s rest)
termination_by cs.length

/-- A single mapping that is not empty gives its values by name. -/
def supply : List Value → Supply
  | [.map (e :: es)] => { queue := [.map (e :: es)], names := some (e :: es) }
  | values => { queue := values }

def fill (message : Value) (values : List Value) : Option String := do
  let text ← plainText? message
  if values.isEmpty then return String.ofList text
  return String.ofList (← run (supply values) text)

end Stanza.Log.Template
