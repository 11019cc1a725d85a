import Stanza.Config.Resolution
import Stanza.Header
import Stanza.Redaction
import Stanza.Retirement
import Stanza.Value.Json

/-!
# Showing a configuration

A resolved configuration without its secrets, as an INI file that resolves to the same configuration, or as
JSON.
-/

namespace Stanza.Dump

mutual

/-- With texts for keys, periods and spans of time, and lists for tuples. -/
def plain : Value → Except Fault Value
  | .map entries => (.map ∘ Settings.ofPairs) <$> plainEntries entries
  | .list items | .tuple items => .list <$> plainItems items
  | .span s =>
    match Period.ofSpan? s with
    | some p => .text <$> digits p.write
    | none => .error (.rejected .negativePeriod)
  | .period p => .text <$> digits p.write
  | value => .ok value
termination_by structural value => value

def plainItems : List Value → Except Fault (List Value)
  | [] => .ok []
  | item :: rest => do
    let item ← plain item
    return item :: (← plainItems rest)
termination_by structural items => items

def plainEntries : List (Value × Value) → Except Fault (List (Value × Value))
  | [] => .ok []
  | (key, value) :: rest => do
    let name ← digits key.display
    let value ← plain value
    return (.text name, value) :: (← plainEntries rest)
termination_by structural entries => entries

end

def json (c : Config) : Except Fault String := do
  let shown := Redaction.redact (← plain (.map c.copy))
  return (← Json.write (.indented 2) 0 shown) ++ "\n"

/-- Whether a retired setting has its default value, so that it need not have been written. -/
def isDefault (spec : Schema.SectionSpec) (raw : Settings) (key : String) : Except Fault Bool := do
  match spec.incoming.get? key with
  | some { default := .fixed value, .. } =>
    if value.isNull then return false
    let written := Value.text (← digits value.display)
    return (raw.get? key).any (·.same written)
  | _ => return false

def rawSettings (spec : Schema.SectionSpec) (resolved : Settings) (retired : List String) :
    Except Fault Settings := do
  let raw ← digits (Schema.render spec.outgoing resolved)
  retired.foldlM (fun raw key => do return if ← isDefault spec raw key then raw.erase key else raw) raw

def extraBlock? (copy : Settings) : Value × Value → Option (Value × Value)
  | (.text name, _) =>
    match copy.get? name with
    | some (.map settings) => some (.text (Header.format { name }), .map settings)
    | _ => none
  | _ => none

/-- The sections by their headers. Other sections of the document are kept if they hold settings. -/
def sections (c : Config) (host : Host) : Except Fault Settings := do
  let copy := c.copy
  let block (name : String) (settings : Settings) : Value × Value :=
    (.text (Header.format { name }), .map settings)
  let globals := match copy.get? "global" with
    | some (.map settings) => settings
    | _ => []
  let profiles ← c.profiles.toList.mapM fun (name, profile) => do
    let header := Header.format { name := "database", subsection := name }
    return (Value.text header, Value.map (← rawSettings Schema.writeDatabase profile Retirement.databaseKeys))
  let readProfile ← rawSettings Schema.database c.readProfile Retirement.databaseKeys
  let commandProcessing ←
    rawSettings (Schema.commandProcessing host) c.commandProcessing Retirement.commandProcessingKeys
  let puppetdb ← rawSettings Schema.puppetdb c.puppetdb []
  let developer ← rawSettings Schema.developer c.developer []
  return [block "global" globals] ++ profiles ++ [block "read-database" readProfile,
    block "command-processing" commandProcessing, block "puppetdb" puppetdb, block "developer" developer]
    ++ c.extra.filterMap (extraBlock? copy)

def iniValue : Value → Except Fault String
  | .bool b => .ok (if b then "true" else "false")
  | .list items => do return ",".intercalate (← items.mapM fun item => digits item.display)
  | value => digits value.display

def iniSection (header : String) (settings : Settings) : Except Fault (List String) := do
  let lines ← settings.mapM fun (key, value) => do
    return (← digits key.display) ++ " = " ++ (← iniValue value)
  return header :: lines

def ini (shown : Settings) : Except Fault String := do
  let blocks ← shown.mapM fun (key, value) => do
    match value with
    | .map settings => iniSection (← digits key.display) settings
    | _ => throw .noMember
  return "\n".intercalate (List.intercalate [""] blocks) ++ "\n"

def text (c : Config) (host : Host) : Except Fault String := do
  match Redaction.redact (.map (Settings.ofPairs (← sections c host))) with
  | .map shown => ini shown
  | _ => return ""

end Stanza.Dump
