import Stanza.Decimal.Reading
import Stanza.Decimal.Rounded

/-!
# Spans of time

An exact, possibly negative length of time in microseconds. Its whole days, rounded down, have at most
nine digits.
-/

namespace Stanza

def secondMicros : Int := 1000000
def minuteMicros : Int := 60 * secondMicros
def dayMicros : Int := 86400 * secondMicros

def maxDays : Int := 999999999

structure Span where
  micros : Int
  days_ge : -maxDays ≤ micros.fdiv dayMicros
  days_le : micros.fdiv dayMicros ≤ maxDays
  deriving DecidableEq

namespace Span

inductive RangeError where
  | days (n : Int)
  /-- The number of days does not even fit a signed 32-bit word. -/
  | huge
  deriving DecidableEq

def RangeError.message : RangeError → String
  | .days n => "days=" ++ toString n ++ "; must have magnitude <= " ++ toString maxDays
  | .huge => "Python int too large to convert to C int"

def ofMicros (micros : Int) : Except RangeError Span :=
  let days := micros.fdiv dayMicros
  if h : -maxDays ≤ days ∧ days ≤ maxDays then .ok ⟨micros, h.1, h.2⟩
  else if -2147483648 ≤ days ∧ days ≤ 2147483647 then .error (.days days)
  else .error .huge

def days (s : Span) : Int := s.micros.fdiv dayMicros

def dayPart (s : Span) : Nat := (s.micros.fmod dayMicros).toNat

def seconds (s : Span) : Nat := s.dayPart / 1000000

def fraction (s : Span) : Nat := s.dayPart % 1000000

def ofMinutes (n : Int) : Except RangeError Span := ofMicros (n * minuteMicros)

def ofDays (n : Int) : Except RangeError Span := ofMicros (n * dayMicros)

def toSeconds (s : Span) : Float :=
  Decimal.toDouble (s.micros < 0) (Decimal.digitsOf s.micros.natAbs) (-6)

/-- The whole minutes, rounded down, in the length in seconds as a double. A length of a second or more is
rounded to 53 binary digits; nothing below a second reaches a whole minute either way. -/
def wholeMinutes (s : Span) : Int :=
  let length := s.micros.natAbs
  let places := 52 - Nat.log2 (length / 1000000)
  let seconds := (Decimal.Ratio.mk (length <<< places) 1000000).round
  (if s.micros < 0 then -(seconds : Int) else seconds).fdiv (60 <<< places : Nat)

def twoDigits (n : Nat) : String := if n < 10 then "0" ++ toString n else toString n

def sixDigits (n : Nat) : String :=
  let t := toString n
  String.ofList (List.replicate (6 - t.length) '0') ++ t

def text (s : Span) : String :=
  let clock := toString (s.seconds / 3600) ++ ":" ++ twoDigits (s.seconds / 60 % 60) ++ ":"
    ++ twoDigits (s.seconds % 60) ++ (if s.fraction = 0 then "" else "." ++ sixDigits s.fraction)
  if s.days = 0 then clock
  else toString s.days ++ (if s.days.natAbs = 1 then " day, " else " days, ") ++ clock

def construction (s : Span) : String :=
  let parts := [("days", s.days), ("seconds", (s.seconds : Int)), ("microseconds", (s.fraction : Int))]
  let written := (parts.filter (·.2 ≠ 0)).map fun (name, n) => name ++ "=" ++ toString n
  "datetime.timedelta(" ++ (if written.isEmpty then "0" else ", ".intercalate written) ++ ")"

end Span

end Stanza
