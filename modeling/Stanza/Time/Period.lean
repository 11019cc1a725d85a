import Stanza.Time.Span

/-!
# Periods

A period keeps the units in which it was written, such as `14d` or `1d12h`. `Period.total` is its length in
milliseconds with days of 24 hours.
-/

namespace Stanza

structure Period where
  days : Nat := 0
  hours : Nat := 0
  minutes : Nat := 0
  seconds : Nat := 0
  millis : Nat := 0
  deriving DecidableEq

inductive PeriodUnit where
  | days
  | hours
  | minutes
  | seconds
  | millis
  deriving DecidableEq

namespace PeriodUnit

def all : List PeriodUnit := [.days, .hours, .minutes, .seconds, .millis]

def rank : PeriodUnit → Nat
  | .days => 0
  | .hours => 1
  | .minutes => 2
  | .seconds => 3
  | .millis => 4

def name : PeriodUnit → String
  | .days => "days"
  | .hours => "hours"
  | .minutes => "minutes"
  | .seconds => "seconds"
  | .millis => "millis"

def symbol : PeriodUnit → List Char
  | .days => ['d']
  | .hours => ['h']
  | .minutes => ['m']
  | .seconds => ['s']
  | .millis => ['m', 's']

end PeriodUnit

namespace Period

def get (p : Period) : PeriodUnit → Nat
  | .days => p.days
  | .hours => p.hours
  | .minutes => p.minutes
  | .seconds => p.seconds
  | .millis => p.millis

def set (p : Period) (n : Nat) : PeriodUnit → Period
  | .days => { p with days := n }
  | .hours => { p with hours := n }
  | .minutes => { p with minutes := n }
  | .seconds => { p with seconds := n }
  | .millis => { p with millis := n }

def total (p : Period) : Nat :=
  (((p.days * 24 + p.hours) * 60 + p.minutes) * 60 + p.seconds) * 1000 + p.millis

def toSpan (p : Period) : Except Span.RangeError Span := Span.ofMicros (p.total * 1000)

def ofMillis (n : Nat) : Period where
  millis := n % 1000
  seconds := n / 1000 % 60
  minutes := n / 60000 % 60
  hours := n / 3600000 % 24
  days := n / 86400000

/-- The part below a millisecond is cut off; a negative span is no period. -/
def ofSpan? (s : Span) : Option Period :=
  if s.micros < 0 then none else some (ofMillis (s.micros.toNat / 1000))

def longerThan (p q : Period) : Except Span.RangeError Bool := do
  let a ← p.toSpan
  let b ← q.toSpan
  return a.micros > b.micros

end Period

end Stanza
