import Stanza.Config.Basic
import Stanza.Retirement

/-!
# Resolution of documents

A document is checked for retired settings first. Unless one of them is fatal every section is resolved, in a
fixed order.
-/

namespace Stanza

namespace ConfigError

def headingNotText (key : Value) : ConfigError where
  kind := .layout
  message := "error: section identifier must be a string, got " ++ key.typeName

def unknownProduct (shown : String) : ConfigError where
  kind := .domain
  message := "product-name " ++ shown ++ " is illegal; either puppetdb or pe-puppetdb are allowed"

end ConfigError

namespace Config

def resolvedHeadings : List String :=
  ["global", "read-database", "command-processing", "puppetdb", "developer"]

def products : List String := ["puppetdb", "pe-puppetdb"]

/-- The sections by name. Only databases may be repeated here; grouping them finds repetitions. -/
def index (document : Document) : Except ConfigError Settings :=
  document.foldlM (fun sections (key, value) =>
    match key with
    | .text name =>
      if sections.has name && !Database.isHeading name then throw (.repeatedSection name)
      else return sections.set name value
    | key => throw (.headingNotText key)) []

def settingsOf (heading : String) (contents : Value) : Except ConfigError Settings :=
  match contents with
  | .null => .ok []
  | .map entries => .ok entries
  | value => .error (.notSettings heading value)

def productName (name : Value) : Except Fault String :=
  match name with
  | .text s =>
    let small := String.ofList (Text.lower s.toList)
    if products.contains small then .ok small else .error (.config (.unknownProduct s))
  | name => do throw (.config (.unknownProduct (← digits name.literal)))

def defaultTo (settings : Settings) (name : String) (value : Value) : Settings :=
  if (settings.get name).isNull then settings.set name value else settings

def globalsOf (contents : Value) : Except Fault Settings := do
  let settings ← (settingsOf "global" contents).mapError .config
  let settings := defaultTo settings "product-name" (.text "puppetdb")
  let product ← productName (settings.get "product-name")
  let settings := settings.set "product-name" (.text product)
  return defaultTo settings "update-server" (.text "https://updates.puppetlabs.com/check-for-updates")

def resolveSection (spec : Schema.SectionSpec) (heading : String) (contents : Value) : Logged Settings := do
  let settings ← ((settingsOf heading contents).mapError .config : Except Fault Settings)
  Schema.resolveSection spec settings heading

def isExtra : Value × Value → Bool
  | (.text name, _) => !resolvedHeadings.contains name && !Database.isHeading name
  | _ => false

def ofDocument [Pattern.Compiler] (document : Document) (host : Host) : Logged Config := do
  let sections ← ((index document).mapError .config : Except Fault Settings)
  let globals ← (globalsOf (sections.get "global") : Except Fault Settings)
  let developer ← resolveSection Schema.developer "developer" (sections.get "developer")
  let databases ← Database.resolve document
  let commandProcessing ← resolveSection (Schema.commandProcessing host) "command-processing"
    (sections.get "command-processing")
  let puppetdb ← resolveSection Schema.puppetdb "puppetdb" (sections.get "puppetdb")
  return {
    profiles := databases.profiles.map freezeEntries
    readProfile := freezeEntries databases.readProfile
    commandProcessing := freezeEntries commandProcessing
    puppetdb := freezeEntries puppetdb
    developer := freezeEntries developer
    globals := freezeEntries globals
    extra := freezeEntries (sections.filter isExtra) }

end Config

/-- What becomes of a document: a report on retired settings, and a configuration unless one is fatal. -/
structure Outcome where
  report : Retirement.Report
  config? : Option Config

namespace Outcome

def ofDocument [Pattern.Compiler] (document : Document) (host : Host) : Logged Outcome := do
  let sections ← ((Config.index document).mapError .config : Except Fault Settings)
  let report ← Retirement.check sections
  if report.exitRequired then return { report, config? := none }
  else return { report, config? := some (← Config.ofDocument document host) }

def require (o : Outcome) : Except ConfigError Config :=
  match o.config? with
  | some config => .ok config
  | none =>
    let messages := "; ".intercalate (o.report.fatal.map (·.message))
    .error {
      kind := .domain
      message := if messages.isEmpty then "configuration was not resolved" else messages }

end Outcome

end Stanza
