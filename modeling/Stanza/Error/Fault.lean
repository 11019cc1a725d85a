import Stanza.Error.Config
import Stanza.Error.Load
import Stanza.Error.Rejection
import Stanza.Time.Span

/-!
# Faults

Everything that can stop an operation.
-/

namespace Stanza

inductive Fault where
  | config (e : ConfigError)
  | load (e : LoadError)
  | system (e : SystemError)
  | rejected (e : Rejection)
  | undecodable (e : Text.Utf8Error)
  | outOfRange (e : Span.RangeError)
  /-- A pattern repeats something more often than can be counted. -/
  | repetition
  /-- A user without a home directory. -/
  | homeless
  /-- A text that the encoding of the output cannot hold. -/
  | unencodable
  /-- A key that a mapping does not have, as its literal. -/
  | missingKey (shown : String)
  /-- A value of a type that the operation does not take. -/
  | wrongType
  /-- A position past the end of a sequence. -/
  | noItem
  /-- A value without the member that the operation uses. -/
  | noMember

def Fault.message : Fault → String
  | .config e => e.text
  | .load e => e.message
  | .system e => e.message
  | .rejected e => e.message
  | .undecodable e => e.message
  | .outOfRange e => e.message
  | .repetition => "the repetition number is too large"
  | .homeless => "Could not determine home directory."
  | .missingKey shown => shown
  | .unencodable | .wrongType | .noItem | .noMember => ""

def digits (x : Except Text.DigitLimitError α) : Except Fault α :=
  x.mapError fun e => .rejected (.digitLimit e)

end Stanza
