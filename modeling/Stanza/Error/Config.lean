import Stanza.Value.Text

/-!
# Configuration errors

An error in a document has a kind, a message and the settings at fault, if it can name them.
-/

namespace Stanza

inductive ConfigErrorKind where
  | grammar
  | layout
  | schema
  | conversion
  | domain
  | invariant
  deriving DecidableEq

def ConfigErrorKind.tag : ConfigErrorKind → String
  | .grammar => "grammar"
  | .layout => "structure"
  | .schema => "schema"
  | .conversion => "conversion"
  | .domain => "domain"
  | .invariant => "invariant"

def ConfigErrorKind.all : List ConfigErrorKind :=
  [.grammar, .layout, .schema, .conversion, .domain, .invariant]

def ConfigErrorKind.ofTag? (tag : String) : Option ConfigErrorKind := all.find? (·.tag == tag)

/-- A setting at fault. Its path is a text, or the bare key if the section has no name. -/
structure Issue where
  path : Value
  message : String

structure ConfigError where
  kind : ConfigErrorKind
  message : String
  issues : List Issue := []

def ConfigError.text (e : ConfigError) : String :=
  match e.issues with
  | [] => e.message
  | issues => "\n".intercalate (e.message :: issues.map fun i => "- " ++ i.path.shown ++ ": " ++ i.message)

def ConfigError.raiseIfAny (kind : ConfigErrorKind) (message : String) (issues : List Issue) :
    Except ConfigError Unit :=
  if issues.isEmpty then .ok () else .error { kind, message, issues }

end Stanza
