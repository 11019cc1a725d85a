import Stanza.File.Path
import Stanza.Time.Calendar
import Stanza.Time.PeriodText

/-!
# Values

The values of configuration documents, raw and resolved. A mapping is the list of its entries in the order
in which their keys were first written.
-/

namespace Stanza

/-- A value of another type, such as bytes or a set. Nothing is asked of it but this. -/
structure Foreign where
  typeName : String
  isTrue : Bool
  isHashable : Bool
  /-- There is none if it holds a number that is too long to be written. -/
  literal? : Option String
  deriving DecidableEq

inductive Value where
  | null
  | bool (b : Bool)
  | int (n : Int)
  | float (x : Float)
  | text (s : String)
  | list (items : List Value)
  | tuple (items : List Value)
  | map (entries : List (Value × Value))
  | period (p : Period)
  | span (s : Span)
  | path (p : Path)
  | moment (m : Moment)
  | foreign (x : Foreign)
  deriving Inhabited

abbrev Settings := List (Value × Value)

namespace Value

def typeName : Value → String
  | .null => "NoneType"
  | .bool _ => "bool"
  | .int _ => "int"
  | .float _ => "float"
  | .text _ => "str"
  | .list _ => "list"
  | .tuple _ => "tuple"
  | .map _ => "dict"
  | .period _ => "Period"
  | .span _ => "timedelta"
  | .path _ => "PosixPath"
  | .moment m => m.typeName
  | .foreign x => x.typeName

/-- Zeros, empty texts and empty collections are false, and so is `null`. -/
def isTrue : Value → Bool
  | .null => false
  | .bool b => b
  | .int n => n != 0
  | .float x => x != 0.0
  | .text s => !s.isEmpty
  | .list items | .tuple items => !items.isEmpty
  | .map entries => !entries.isEmpty
  | .span s => s.micros != 0
  | .period _ | .path _ | .moment _ => true
  | .foreign x => x.isTrue

def isNull : Value → Bool
  | .null => true
  | _ => false

def isText : Value → Bool
  | .text _ => true
  | _ => false

def isMap : Value → Bool
  | .map _ => true
  | _ => false

mutual

/-- Whether a value can be a key: lists and mappings cannot, nor can a tuple that holds one. -/
def isHashable : Value → Bool
  | .list _ | .map _ => false
  | .tuple items => allHashable items
  | .foreign x => x.isHashable
  | _ => true
termination_by structural x => x

def allHashable : List Value → Bool
  | [] => true
  | x :: xs => x.isHashable && allHashable xs
termination_by structural xs => xs

end

def ofTexts (xs : List String) : Value := .list (xs.map .text)

end Value

end Stanza
