import Stanza.Time.Span

/-!
# Dates and times

Days of the Gregorian calendar from year 1 to 9999, times of day to the microsecond, and both together
with an offset from universal time.
-/

namespace Stanza

structure Date where
  year : Nat
  month : Nat
  day : Nat
  deriving DecidableEq

structure Clock where
  hour : Nat
  minute : Nat
  second : Nat
  micro : Nat := 0
  deriving DecidableEq

inductive Moment where
  | date (d : Date)
  | clock (t : Clock)
  /-- A date and a time, with the offset from universal time in seconds if it is known. -/
  | stamp (d : Date) (t : Clock) (offset : Option Int)
  deriving DecidableEq

def isLeapYear (y : Nat) : Bool := y % 4 == 0 && (y % 100 != 0 || y % 400 == 0)

def monthDays (y m : Nat) : Nat :=
  if m = 2 then (if isLeapYear y then 29 else 28)
  else if m = 4 ∨ m = 6 ∨ m = 9 ∨ m = 11 then 30
  else 31

def Date.isValid (d : Date) : Bool :=
  1 ≤ d.year && d.year ≤ 9999 && 1 ≤ d.month && d.month ≤ 12 && 1 ≤ d.day && d.day ≤ monthDays d.year d.month

def Clock.isValid (t : Clock) : Bool :=
  t.hour < 24 && t.minute < 60 && t.second < 60 && t.micro < 1000000

inductive CalendarError where
  | year (n : Nat)
  | month
  | day
  | hour
  | minute
  | second
  /-- The offset from universal time is a day or more. -/
  | offset (s : Span)
  deriving DecidableEq

def CalendarError.message : CalendarError → String
  | .year n => "year " ++ toString n ++ " is out of range"
  | .month => "month must be in 1..12"
  | .day => "day is out of range for month"
  | .hour => "hour must be in 0..23"
  | .minute => "minute must be in 0..59"
  | .second => "second must be in 0..59"
  | .offset s =>
    "offset must be a timedelta strictly between -timedelta(hours=24) and timedelta(hours=24), not "
      ++ s.construction ++ "."

def Date.check (d : Date) : Except CalendarError Unit :=
  if d.year < 1 ∨ d.year > 9999 then .error (.year d.year)
  else if d.month < 1 ∨ d.month > 12 then .error .month
  else if d.isValid then .ok ()
  else .error .day

def Clock.check (t : Clock) : Except CalendarError Unit :=
  if t.hour > 23 then .error .hour
  else if t.minute > 59 then .error .minute
  else if t.second > 59 then .error .second
  else .ok ()

def checkOffset (offset : Int) : Except CalendarError Unit :=
  if offset.natAbs < 86400 then .ok ()
  else
    match Span.ofMicros (offset * secondMicros) with
    | .ok s => .error (.offset s)
    | .error _ => .ok ()

def daysBeforeYear (y : Nat) : Nat :=
  let p := y - 1
  p * 365 + p / 4 - p / 100 + p / 400

def daysBeforeMonth (y m : Nat) : Nat :=
  ((List.range m).drop 1).foldl (fun n k => n + monthDays y k) 0

def Date.ordinal (d : Date) : Nat := daysBeforeYear d.year + daysBeforeMonth d.year d.month + (d.day - 1)

def monthOfDay (y m n : Nat) : Nat → Date
  | 0 => ⟨y, m, n + 1⟩
  | left + 1 => if n < monthDays y m then ⟨y, m, n + 1⟩ else monthOfDay y (m + 1) (n - monthDays y m) left

def Date.ofOrdinal (n : Nat) : Date :=
  let guess := n / 366 + 1
  let year := ((List.range (n / 36500 + 3)).foldl
    (fun y _ => if daysBeforeYear (y + 1) ≤ n then y + 1 else y) guess)
  monthOfDay year 1 (n - daysBeforeYear year) 11

def epochOrdinal : Nat := 719162

namespace Date

def fourDigits (n : Nat) : String :=
  let t := toString n
  String.ofList (List.replicate (4 - t.length) '0') ++ t

def text (d : Date) : String := fourDigits d.year ++ "-" ++ Span.twoDigits d.month ++ "-" ++ Span.twoDigits d.day

end Date

def Clock.text (t : Clock) : String :=
  Span.twoDigits t.hour ++ ":" ++ Span.twoDigits t.minute ++ ":" ++ Span.twoDigits t.second
    ++ (if t.micro = 0 then "" else "." ++ Span.sixDigits t.micro)

def offsetText (offset : Int) : String :=
  let n := offset.natAbs
  (if offset < 0 then "-" else "+") ++ Span.twoDigits (n / 3600) ++ ":" ++ Span.twoDigits (n / 60 % 60)
    ++ (if n % 60 = 0 then "" else ":" ++ Span.twoDigits (n % 60))

namespace Moment

def text (separator : String) : Moment → String
  | .date d => d.text
  | .clock t => t.text
  | .stamp d t offset => d.text ++ separator ++ t.text ++ ((offset.map offsetText).getD "")

def typeName : Moment → String
  | .date _ => "date"
  | .clock _ => "time"
  | .stamp .. => "datetime"

def clockFields (t : Clock) : List Nat :=
  if t.micro ≠ 0 then [t.hour, t.minute, t.second, t.micro]
  else if t.second ≠ 0 then [t.hour, t.minute, t.second]
  else [t.hour, t.minute]

def zone (offset : Int) : String :=
  if offset = 0 then "datetime.timezone.utc"
  else match Span.ofMicros (offset * secondMicros) with
    | .ok s => "datetime.timezone(" ++ s.construction ++ ")"
    | .error _ => ""

def construction : Moment → String
  | .date d => "datetime.date(" ++ ", ".intercalate ([d.year, d.month, d.day].map toString) ++ ")"
  | .clock t => "datetime.time(" ++ ", ".intercalate ((clockFields t).map toString) ++ ")"
  | .stamp d t offset =>
    "datetime.datetime(" ++ ", ".intercalate (([d.year, d.month, d.day] ++ clockFields t).map toString)
      ++ ((offset.map fun o => ", tzinfo=" ++ zone o).getD "") ++ ")"

/-- The point in time in microseconds, for moments that can be compared with one another. -/
def instant (d : Date) (t : Clock) (offset : Int) : Int :=
  ((d.ordinal : Int) * 86400 + t.hour * 3600 + t.minute * 60 + t.second - offset) * secondMicros + t.micro

/-- Two dates with a time and a known offset are the same if they are the same point in time. -/
def same : Moment → Moment → Bool
  | .stamp d t (some o), .stamp d' t' (some o') => instant d t o == instant d' t' o'
  | a, b => a = b

end Moment

end Stanza
