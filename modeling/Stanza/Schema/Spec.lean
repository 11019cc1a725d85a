import Stanza.Value.Settings

/-!
# Section specifications

A specification lists the fields of a section by name: the raw ones that a user may write, with the shape
and default of each, and the resolved ones with their kinds. Of two fields with one name the later
counts.
-/

namespace Stanza.Schema

/-- What a raw value may look like. -/
inductive Shape where
  | integer
  | text
  | boolean
  | textOrList
  | choice
  deriving DecidableEq

/-- What a resolved value is. -/
inductive Kind where
  | integer
  | boolean
  | text
  | minutes
  | days
  | period
  | choice
  | texts
  deriving DecidableEq

def Shape.tag : Shape → String
  | .integer => "integer"
  | .text => "text"
  | .boolean => "boolean"
  | .textOrList => "text-or-list"
  | .choice => "choice"

def Shape.ofTag? (tag : String) : Option Shape :=
  [Shape.integer, .text, .boolean, .textOrList, .choice].find? (·.tag == tag)

def Kind.tag : Kind → String
  | .integer => "integer"
  | .boolean => "boolean"
  | .text => "string"
  | .minutes => "minutes"
  | .days => "days"
  | .period => "period"
  | .choice => "choice"
  | .texts => "string-list"

def Kind.ofTag? (tag : String) : Option Kind :=
  [Kind.integer, .boolean, .text, .minutes, .days, .period, .choice, .texts].find? (·.tag == tag)

inductive Default where
  | none
  | fixed (value : Value)
  /-- Worked out from the host when it is needed. -/
  | computed (value : Value)

def Default.value : Default → Value
  | .none => .null
  | .fixed v | .computed v => v

structure Incoming where
  name : String
  shape : Shape
  required : Bool := false
  default : Default := .none
  choices : List String := []

structure Outgoing where
  name : String
  kind : Kind
  optional : Bool := false
  minimum : Option Int := none
  choices : List String := []
  deriving DecidableEq

class Named (α : Type) where
  name : α → String

instance : Named Incoming := ⟨Incoming.name⟩
instance : Named Outgoing := ⟨Outgoing.name⟩

structure Spec (α : Type) where
  fields : List α

namespace Spec

variable {α : Type} [Named α]

def hasName (name : String) (field : α) : Bool := Named.name field == name

def get? (spec : Spec α) (name : String) : Option α := spec.fields.reverse.find? (hasName name)

def declares (spec : Spec α) (name : String) : Bool := spec.fields.any (hasName name)

def declaresKey (spec : Spec α) : Value → Bool
  | .text name => spec.declares name
  | _ => false

/-- Puts a field in the place of the one with its name, or at the end. -/
def put (fields : List α) (field : α) : List α :=
  match fields with
  | [] => [field]
  | f :: rest => if hasName (Named.name field) f then field :: rest else f :: put rest field

def extend (spec : Spec α) (extra : List α) : Spec α :=
  ⟨(spec.fields ++ extra).foldl put []⟩

def names (spec : Spec α) : List String := (spec.fields.map Named.name).eraseDups

def unknownKeys (spec : Spec α) (data : Settings) : List Value :=
  data.keys.filter fun key => !spec.declaresKey key

def stripUnknown (spec : Spec α) (data : Settings) : Settings :=
  data.filter fun e => spec.declaresKey e.1

end Spec

def insertName (name : String) : List String → List String
  | [] => [name]
  | other :: rest => if name ≤ other then name :: other :: rest else other :: insertName name rest

def sortNames (names : List String) : List String := names.foldr insertName []

def requiredNames (spec : Spec Outgoing) : List String :=
  (Spec.mk (spec.fields.filter (!·.optional))).names

structure SectionSpec where
  incoming : Spec Incoming
  outgoing : Spec Outgoing

end Stanza.Schema
