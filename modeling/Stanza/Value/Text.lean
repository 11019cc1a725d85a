import Stanza.Decimal.Layout
import Stanza.Text.Literal
import Stanza.Value.Basic

/-!
# Values as text

`literal` shows a value as messages quote it; `display` is its plain text, which differs for texts, paths
and times only.
-/

namespace Stanza.Value

/-- Doubles have an exponent of at least two digits from `1e16` and below `1e-4`, and whole ones end
in `.0`. -/
def floatLayout : Decimal.Layout := ⟨-4, 15, 2, true⟩

def boolText (b : Bool) : String := if b then "True" else "False"

def commaSeparated (xs : List String) : String := ", ".intercalate xs

def tupleText : List String → String
  | [x] => "(" ++ x ++ ",)"
  | xs => "(" ++ commaSeparated xs ++ ")"

def periodLiteral (p : Period) : Except Text.DigitLimitError String := do
  let fields ← PeriodUnit.all.mapM fun u => (u.name ++ "=" ++ ·) <$> Text.writeInteger (p.get u)
  return "Period(" ++ commaSeparated fields ++ ")"

mutual

def literal : Value → Except Text.DigitLimitError String
  | .null => .ok "None"
  | .bool b => .ok (boolText b)
  | .int n => Text.writeInteger n
  | .float x => .ok (floatLayout.text x)
  | .text s => .ok (Text.literal s)
  | .list items => do return "[" ++ commaSeparated (← literals items) ++ "]"
  | .tuple items => do return tupleText (← literals items)
  | .map entries => do return "\x7b" ++ commaSeparated (← entryLiterals entries) ++ "\x7d"
  | .period p => periodLiteral p
  | .span s => .ok s.construction
  | .path p => .ok ("PosixPath(" ++ Text.literal p.text ++ ")")
  | .moment m => .ok m.construction
  | .foreign x => x.literal?.elim (.error .writing) .ok
termination_by structural x => x

def literals : List Value → Except Text.DigitLimitError (List String)
  | [] => .ok []
  | x :: xs => do return (← x.literal) :: (← literals xs)
termination_by structural xs => xs

def entryLiterals : List (Value × Value) → Except Text.DigitLimitError (List String)
  | [] => .ok []
  | (k, v) :: es => do
    let key ← k.literal
    let value ← v.literal
    return (key ++ ": " ++ value) :: (← entryLiterals es)
termination_by structural es => es

end

def display : Value → Except Text.DigitLimitError String
  | .text s => .ok s
  | .period p => p.write
  | .span s => .ok s.text
  | .path p => .ok p.text
  | .moment m => .ok (m.text " ")
  | x => x.literal

def shown (x : Value) : String :=
  match x.display with
  | .ok s => s
  | .error _ => ""

end Stanza.Value
