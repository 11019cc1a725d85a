import Stanza.Error.Fault
import Stanza.Text.Case
import Stanza.Schema.Spec

/-!
# Conversion of values

Raw values become values of the kind that their field declares; `render` writes a resolved value in
the raw form again. A period is also made of values for its fields, days first.
-/

namespace Stanza.Schema

def rejectedDigits (x : Except Text.DigitLimitError α) : Except Rejection α := x.mapError .digitLimit

def wholeNumber (value : Value) : Except Rejection Int :=
  match value with
  | .int n => .ok n
  | .text s =>
    match Text.readInteger? s.toList with
    | some n => rejectedDigits n
    | none => .error (.notInteger (Text.literal s))
  | value => do throw (.notInteger (← rejectedDigits value.literal))

def boolean : Value → Except Rejection Bool
  | .bool b => .ok b
  | .text s =>
    match String.ofList (Text.lower (Text.trim s.toList)) with
    | "true" => .ok true
    | "false" => .ok false
    | _ => .error .notBoolean
  | _ => .error .notBoolean

def textOf (value : Value) : Except Rejection String :=
  match value with
  | .text s => .ok s
  | .int _ | .float _ => rejectedDigits value.display
  | value => .error (.notText value.typeName)

def splitList (s : String) : List String :=
  (s.toList.splitOnP fun c => c == ',' || c == ';').map String.ofList

def trimParts (parts : List String) : List String := (parts.map Text.trimmed).filter (!·.isEmpty)

def textList : Value → Except Rejection (List String)
  | .text s => .ok (trimParts (splitList s))
  | .list items | .tuple items => trimParts <$> items.mapM textOf
  | value => .error (.notTextOrList value.typeName)

def period (s : String) : Except Rejection Period :=
  match Period.read? s.toList with
  | some p => rejectedDigits p
  | none => .error (.notPeriod (Text.literal s))

def atLeast (minimum : Option Int) (n : Int) : Except Rejection Unit :=
  match minimum with
  | some m => if n < m then .error (.belowMinimum m) else .ok ()
  | none => .ok ()

def convert (field : Outgoing) (raw : Value) : Except Fault Value :=
  let refuse {α : Type} (x : Except Rejection α) : Except Fault α := x.mapError .rejected
  match field.kind with
  | .integer => do
    let n ← refuse (wholeNumber raw)
    refuse (atLeast field.minimum n)
    return .int n
  | .boolean => .bool <$> refuse (boolean raw)
  | .text => .text <$> refuse (textOf raw)
  | .minutes => do
    let n ← refuse (wholeNumber raw)
    refuse (atLeast field.minimum n)
    .span <$> (Span.ofMinutes n).mapError .outOfRange
  | .days => do
    let n ← refuse (wholeNumber raw)
    refuse (atLeast field.minimum n)
    .span <$> (Span.ofDays n).mapError .outOfRange
  | .period => do
    let s ← refuse (textOf raw)
    .period <$> refuse (period s)
  | .choice => do
    let s := Text.trimmed (← refuse (textOf raw))
    if field.choices.contains s then return .text s
    else throw (.rejected (.notChoice field.choices))
  | .texts => Value.ofTexts <$> refuse (textList raw)

/-- A resolved value in the form in which a user would write it. -/
def renderValue (kind : Kind) (value : Value) : Except Text.DigitLimitError Value :=
  match kind, value with
  | .boolean, value => .ok (.text (if value.isTrue then "true" else "false"))
  | .minutes, .span s => .text <$> Text.writeInteger s.wholeMinutes
  | .days, .span s => .text <$> Text.writeInteger s.days
  | .texts, .list items | .texts, .tuple items => do
    return .text (",".intercalate (← items.mapM Value.display))
  | _, value => .text <$> value.display

def renderEntry (spec : Spec Outgoing) : Value × Value → Except Text.DigitLimitError (Value × Value)
  | (.text name, value) =>
    match spec.get? name with
    | some field => (.text name, ·) <$> renderValue field.kind value
    | none => .ok (.text name, value)
  | entry => .ok entry

def render (spec : Spec Outgoing) (data : Settings) : Except Text.DigitLimitError Settings :=
  data.mapM (renderEntry spec)

end Stanza.Schema

namespace Stanza.Period

def field (u : PeriodUnit) : Value → Except Rejection Nat
  | .int (.ofNat n) => .ok n
  | _ => .error (.periodField u.name)

def setFields (p : Period) : List (PeriodUnit × Value) → Except Rejection Period
  | [] => .ok p
  | (u, value) :: rest => do (p.set (← field u value) u).setFields rest

def ofFields (values : List Value) : Except Fault Period :=
  if PeriodUnit.all.length < values.length then .error .wrongType
  else (setFields {} (PeriodUnit.all.zip values)).mapError .rejected

end Stanza.Period
