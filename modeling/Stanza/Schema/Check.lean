import Stanza.Logged
import Stanza.Schema.Convert

/-!
# Checks of sections

A raw section is checked field by field before it is converted, and a resolved one after. Every field at
fault is reported in one error; keys that a section does not have are left out with a warning.
-/

namespace Stanza.Schema

def issuePath (heading : String) (key : Value) : Value :=
  if heading.isEmpty then key else .text (heading ++ "." ++ key.shown)

def describe (problem heading : String) : String :=
  if heading.isEmpty then problem else problem ++ " in [" ++ heading ++ "]"

def unknownKeyWarning (heading : String) (key : Value) : Warning where
  source := .schema
  message := "The configuration item `" ++ key.shown ++ "` does not exist and should be removed from the config."
  heading? := some heading
  key? := some key

def warnUnknown (spec : Spec Incoming) (data : Settings) (heading : String) : Logged (List Value) := do
  let unknown := spec.unknownKeys data
  Logged.warn (unknown.map (unknownKeyWarning heading))
  return unknown

def shapeProblem? (field : Incoming) (value : Value) : Except Fault (Option String) :=
  match field.shape, value with
  | .integer, value =>
    match wholeNumber value with
    | .ok _ => .ok none
    | .error _ => do return some ("expected integer, got " ++ (← digits value.literal))
  | .boolean, .bool _ | .boolean, .text _ => .ok none
  | .boolean, value => .ok (some ("expected boolean text, got " ++ value.typeName))
  | .text, .text _ | .text, .int _ | .text, .float _ => .ok none
  | .text, value => .ok (some ("expected string, got " ++ value.typeName))
  | .textOrList, .text _ => .ok none
  | .textOrList, .list items | .textOrList, .tuple items =>
    if items.all Value.isText then .ok none
    else .ok (some ("expected string or list of strings, got " ++ value.typeName))
  | .textOrList, value => .ok (some ("expected string or list of strings, got " ++ value.typeName))
  | .choice, .text s =>
    if field.choices.isEmpty || field.choices.contains (Text.trimmed s) then .ok none
    else
      .ok (some ("invalid value " ++ Text.literal s ++ "; expected one of: "
        ++ ", ".intercalate field.choices))
  | .choice, value => .ok (some ("expected string, got " ++ value.typeName))

/-- What is wrong with a raw field; a `null` counts as absent. -/
def incomingIssue? (heading : String) (data : Settings) (field : Incoming) : Except Fault (Option Issue) := do
  let issue (message : String) : Issue := ⟨issuePath heading (.text field.name), message⟩
  let value := data.get field.name
  if value.isNull then
    return if field.required then some (issue "missing required field") else none
  return (← shapeProblem? field value).map issue

def collectIssues (check : α → Except Fault (Option Issue)) (fields : List α) : Except Fault (List Issue) := do
  return (← fields.mapM check).filterMap id

def validateIncoming (spec : Spec Incoming) (data : Settings) (heading : String) : Logged Settings := do
  let _ ← warnUnknown spec data heading
  let known := spec.stripUnknown data
  let issues ← collectIssues (incomingIssue? heading known) spec.fields
  (ConfigError.raiseIfAny .schema (describe "invalid config" heading) issues).mapError Fault.config
  return known

def fillDefault (data : Settings) (field : Incoming) : Settings :=
  if data.has field.name || field.default.value.isNull then data
  else data.set field.name field.default.value

/-- The settings that are not `null`, with the defaults of the fields that are not among them. -/
def fillDefaults (spec : Spec Incoming) (data : Settings) : Settings :=
  spec.fields.foldl fillDefault (data.filter fun e => !e.2.isNull)

def isKind (field : Outgoing) (value : Value) : Bool :=
  match field.kind, value with
  | .integer, .int _ => true
  | .boolean, .bool _ => true
  | .text, .text _ => true
  | .minutes, .span _ => true
  | .days, .span _ => true
  | .period, .period _ => true
  | .choice, .text s => field.choices.contains s
  | .texts, .list items => items.all Value.isText
  | _, _ => false

def outgoingIssue? (heading : String) (data : Settings) (field : Outgoing) : Option Issue :=
  match data.get? field.name with
  | some value =>
    if isKind field value then none
    else
      some ⟨issuePath heading (.text field.name),
        "expected " ++ field.kind.tag ++ ", got " ++ value.typeName⟩
  | none => none

/-- Unknown keys, then missing fields by name, then fields of a wrong kind. -/
def outgoingIssues (spec : Spec Outgoing) (data : Settings) (heading : String) : List Issue :=
  (spec.unknownKeys data).map (fun key => ⟨issuePath heading key, "unknown field"⟩)
    ++ (sortNames ((requiredNames spec).filter (!data.has ·))).map
      (fun name => ⟨issuePath heading (.text name), "missing required field"⟩)
    ++ spec.fields.filterMap (outgoingIssue? heading data)

def validateOutgoing (spec : Spec Outgoing) (data : Settings) (heading : String) : Except Fault Settings := do
  (ConfigError.raiseIfAny .schema (describe "invalid config" heading)
    (outgoingIssues spec data heading)).mapError Fault.config
  return data

def conversionIssue (heading : String) (key raw : Value) (e : Rejection) : Except Fault Issue := do
  return ⟨issuePath heading key, "cannot convert " ++ (← digits raw.literal) ++ ": " ++ e.message⟩

def convertEntry (spec : Spec Outgoing) (heading : String) :
    Value × Value → Except Fault ((Value × Value) ⊕ Issue)
  | (.text name, raw) =>
    match spec.get? name with
    | none => .ok (.inl (.text name, raw))
    | some field =>
      match convert field raw with
      | .ok value => .ok (.inl (.text name, value))
      | .error (.rejected e) => .inr <$> conversionIssue heading (.text name) raw e
      | .error e => .error e
  | entry => .ok (.inl entry)

def settingsOf : List ((Value × Value) ⊕ Issue) → Settings := List.filterMap (·.getLeft?)

def issuesOf : List ((Value × Value) ⊕ Issue) → List Issue := List.filterMap (·.getRight?)

def convertSettings (spec : Spec Outgoing) (data : Settings) (heading : String) : Except Fault Settings := do
  let entries ← data.mapM (convertEntry spec heading)
  (ConfigError.raiseIfAny .conversion (describe "invalid config value" heading)
    (issuesOf entries)).mapError Fault.config
  return settingsOf entries

def resolveSection (spec : SectionSpec) (raw : Settings) (heading : String) : Logged Settings := do
  let known ← validateIncoming spec.incoming raw heading
  let converted ← convertSettings spec.outgoing (fillDefaults spec.incoming known) heading
  validateOutgoing spec.outgoing converted heading

end Stanza.Schema
