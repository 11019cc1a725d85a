import Stanza.Error.Rejection
import Stanza.Text.Case
import Stanza.Value.Text

/-!
# Log levels

A level is an integer; the usual ones have names. A truth value counts as the level 1 or 0.
-/

namespace Stanza.Log

inductive Level where
  | number (n : Int)
  | flag (b : Bool)
  deriving DecidableEq

namespace Level

def weight : Level → Int
  | .number n => n
  | .flag b => if b then 1 else 0

/-- Zero stands for no level of its own. -/
def isSet (l : Level) : Bool := l.weight != 0

def unset : Level := .number 0

def warning : Level := .number 30

/-- The names; of two for one level the first is shown. -/
def names : List (String × Int) :=
  [("CRITICAL", 50), ("FATAL", 50), ("ERROR", 40), ("WARNING", 30), ("WARN", 30), ("INFO", 20), ("DEBUG", 10),
    ("NOTSET", 0)]

def label (n : Int) : String :=
  match names.find? (·.2 == n) with
  | some (name, _) => name
  | none => "Level " ++ toString n

/-- The level that a setting names, in any case and with blanks around it. -/
def ofValue : Value → Except Rejection Level
  | .int n => .ok (.number n)
  | .bool b => .ok (.flag b)
  | .text s =>
    match names.lookup (String.ofList (Text.upper (Text.trim s.toList))) with
    | some n => .ok (.number n)
    | none => .error (.unknownLevel (Text.literal s))
  | value => .error (.levelType value.typeName)

end Level

end Stanza.Log
