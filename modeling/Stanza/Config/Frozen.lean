import Stanza.Value.Text

/-!
# Frozen values

A frozen value cannot be changed: its lists are tuples, and its mappings are views that only read. `thaw` gives
the lists back.
-/

namespace Stanza

mutual

def Value.freeze : Value → Value
  | .list items | .tuple items => .tuple (freezeItems items)
  | .map entries => .map (freezeEntries entries)
  | value => value
termination_by structural x => x

def freezeItems : List Value → List Value
  | [] => []
  | x :: xs => x.freeze :: freezeItems xs
termination_by structural xs => xs

def freezeEntries : List (Value × Value) → List (Value × Value)
  | [] => []
  | (key, value) :: rest => (key, value.freeze) :: freezeEntries rest
termination_by structural es => es

end

mutual

def Value.thaw : Value → Value
  | .tuple items => .list (thawItems items)
  | .map entries => .map (thawEntries entries)
  | value => value
termination_by structural x => x

def thawItems : List Value → List Value
  | [] => []
  | x :: xs => x.thaw :: thawItems xs
termination_by structural xs => xs

def thawEntries : List (Value × Value) → List (Value × Value)
  | [] => []
  | (key, value) :: rest => (key, value.thaw) :: thawEntries rest
termination_by structural es => es

end

namespace Value

mutual

def frozenLiteral : Value → Except Text.DigitLimitError String
  | .tuple items => do return tupleText (← frozenLiterals items)
  | .map entries => do
    return "mappingproxy(\x7b" ++ commaSeparated (← frozenEntryLiterals entries) ++ "\x7d)"
  | value => value.literal
termination_by structural x => x

def frozenLiterals : List Value → Except Text.DigitLimitError (List String)
  | [] => .ok []
  | x :: xs => do return (← x.frozenLiteral) :: (← frozenLiterals xs)
termination_by structural xs => xs

def frozenEntryLiterals : List (Value × Value) → Except Text.DigitLimitError (List String)
  | [] => .ok []
  | (key, value) :: rest => do
    let key ← key.literal
    let value ← value.frozenLiteral
    return (key ++ ": " ++ value) :: (← frozenEntryLiterals rest)
termination_by structural es => es

end

/-- The plain text of a frozen value. A mapping is shown as what its view shows. -/
def frozenDisplay : Value → Except Text.DigitLimitError String
  | .tuple items => do return tupleText (← frozenLiterals items)
  | .map entries => do return "\x7b" ++ commaSeparated (← frozenEntryLiterals entries) ++ "\x7d"
  | value => value.display

end Value

end Stanza
