import Stanza.Text.Integer
import Stanza.Time.Calendar

/-!
# Rejected values

Why a single value is not accepted. A `shown` text is the literal of the value.
-/

namespace Stanza

inductive Rejection where
  | notInteger (shown : String)
  | belowMinimum (minimum : Int)
  | notBoolean
  | notText (typeName : String)
  | notTextOrList (typeName : String)
  | notChoice (choices : List String)
  | notPeriod (shown : String)
  | negativePeriod
  | periodField (name : String)
  | digitLimit (e : Text.DigitLimitError)
  | unknownKind (shown enumeration : String)
  | levelType (typeName : String)
  | unknownLevel (shown : String)
  | loggerNameType (typeName : String)
  | emptyLoggerName
  | logFormat (shown : String)
  | calendar (e : CalendarError)
  | integerLiteral (base : Nat) (shown : String)
  | floatLiteral (shown : String)
  /-- The number of no character. -/
  | characterRange
  /-- A pattern that is to be both ASCII and Unicode. -/
  | patternCharset
  deriving DecidableEq

def Rejection.message : Rejection → String
  | .notInteger shown => "expected integer, got " ++ shown
  | .belowMinimum minimum => "must be >= " ++ toString minimum
  | .notBoolean => "expected true or false"
  | .notText t => "expected string, got " ++ t
  | .notTextOrList t => "expected string or list, got " ++ t
  | .notChoice choices => "expected one of: " ++ ", ".intercalate choices
  | .notPeriod shown => "invalid period " ++ shown ++ "; expected a value like 14d, 12h or 30m"
  | .negativePeriod => "period must not be negative"
  | .periodField name => "period " ++ name ++ " must be a non-negative integer"
  | .digitLimit e => e.message
  | .unknownKind shown enumeration => shown ++ " is not a valid " ++ enumeration
  | .levelType t => "level must be int or str, got " ++ t
  | .unknownLevel shown => "unsupported logging level " ++ shown
  | .loggerNameType t => "logger_name must be a string, got " ++ t
  | .emptyLoggerName => "logger_name must not be empty"
  | .logFormat shown => "unsupported log format " ++ shown
  | .calendar e => e.message
  | .integerLiteral base shown => "invalid literal for int() with base " ++ toString base ++ ": " ++ shown
  | .floatLiteral shown => "could not convert string to float: " ++ shown
  | .characterRange => "chr() arg not in range(0x110000)"
  | .patternCharset => "ASCII and UNICODE flags are incompatible"

end Stanza
