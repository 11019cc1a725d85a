import Stanza.Log.Level
import Stanza.Log.Redaction
import Stanza.Log.Template
import Stanza.Value.Json

/-!
# Log records

A record is set as a line of text, or as a JSON object with its further fields. Messages, fields and errors go
through a redactor first. A record that cannot be set in the format of a handler is left out there.
-/

namespace Stanza.Log

structure Record where
  level : Int
  logger : String
  message : Value
  values : List Value := []
  extra : Settings := []
  /-- Seconds since the start of 1970. -/
  created : Value := .int 0
  /-- The text of an error that goes with the record. -/
  error? : Option String := none

inductive Format where
  | text
  | json
  deriving DecidableEq

def Format.ofValue : Value → Except Fault Format
  | .text "text" => .ok .text
  | .text "json" => .ok .json
  | value => do throw (.rejected (.logFormat (← digits value.literal)))

abbrev Redactor := Value → Except Text.DigitLimitError Value

/-- Fields that every record has, which further fields may not replace. -/
def ownFields : List String :=
  ["name", "msg", "args", "levelname", "levelno", "pathname", "filename", "module", "exc_info", "exc_text",
    "stack_info", "lineno", "funcName", "created", "msecs", "relativeCreated", "thread", "threadName",
    "processName", "process", "message", "asctime"]

/-- Names that are never shown among the further fields. -/
def hiddenFields : List String := "taskName" :: ownFields

def Record.clash? (r : Record) : Option String :=
  r.extra.findSome? fun (key, _) =>
    match key with
    | .text name => if ownFields.contains name then some name else none
    | _ => none

def Record.text? (r : Record) : Option String := Template.fill r.message r.values

def messageText : Value → Option String
  | .text s => some s
  | .null => some ""
  | value => (Json.compact value).toOption

def redacted? (redactor : Redactor) (value : Value) : Option Value := (redactor value).toOption

def redactedText? (redactor : Redactor) (s : String) : Option String :=
  redacted? redactor (.text s) >>= messageText

def Record.line? (redactor : Redactor) (r : Record) : Option String := do
  let message ← redactedText? redactor (← r.text?)
  let heading := r.extra.get "section"
  let place ← if heading.isTrue then do pure (" [" ++ (← heading.display.toOption) ++ "]") else pure ""
  let line := Level.label r.level ++ place ++ " " ++ message
  match r.error? with
  | none => return line
  | some e => return line ++ "\n" ++ (← redactedText? redactor e)

/-- The further fields in a form that JSON can hold. Names that start with an underscore are left out. -/
def shownFields? (extra : Settings) : Option Settings :=
  extra.foldlM (fun shown (key, value) =>
    match key with
    | .text name =>
      if hiddenFields.contains name || name.toList.head? == some '_' then some shown
      else do return shown ++ [(.text name, ← (plain value).toOption)]
    | _ => none) []

/-- Seconds in microseconds, rounded to the nearest, a half to the even one. -/
def microsOf? : Value → Option Int
  | .int n => some (n * secondMicros)
  | .bool b => some (if b then secondMicros else 0)
  | .float x =>
    let whole := if x < 0.0 then x.ceil else x.floor
    match Decimal.Parts.ofFloat whole, Decimal.Parts.ofFloat ((x - whole) * 1e6) with
    | .zero _, part => roundedPart 0 part
    | .finite negative m q, part =>
      let r := Decimal.Ratio.ofBinary m q
      roundedPart (Text.signed negative (r.num / r.den)) part
    | _, _ => none
  | _ => none
where
  roundedPart (seconds : Int) (part : Decimal.Parts) : Option Int :=
    part.ratio?.map fun r => seconds * secondMicros + Text.signed part.negative r.round

def threeDigits (n : Nat) : String :=
  let t := toString n
  String.ofList (List.replicate (3 - t.length) '0') ++ t

def timestamp? (created : Value) : Option String := do
  let micros ← microsOf? created
  let day := micros.fdiv dayMicros + epochOrdinal
  let rest := (micros.fmod dayMicros).toNat
  if day < 0 ∨ 3652059 ≤ day then none
  let clock : Clock := ⟨rest / 3600000000, rest / 60000000 % 60, rest / 1000000 % 60, 0⟩
  return (Date.ofOrdinal day.toNat).text ++ "T" ++ clock.text ++ "." ++ threeDigits (rest / 1000 % 1000) ++ "Z"

def Record.json? (redactor : Redactor) (r : Record) : Option String := do
  let time ← timestamp? r.created
  let message ← redactedText? redactor (← r.text?)
  let shown ← shownFields? r.extra
  let fields ← if shown.isEmpty then pure [] else do
    pure [(Value.text "fields", ← redacted? redactor (.map shown))]
  let error ← match r.error? with
    | none => pure []
    | some e => do pure [(Value.text "exception", Value.text (← redactedText? redactor e))]
  let event : Settings := [(.text "timestamp", .text time), (.text "level", .text (Level.label r.level)),
    (.text "logger", .text r.logger), (.text "message", .text message)]
  (Json.compact (.map (event ++ fields ++ error))).toOption

def Format.set? (format : Format) (redactor : Redactor) (r : Record) : Option String :=
  match format with
  | .text => r.line? redactor
  | .json => r.json? redactor

end Stanza.Log
