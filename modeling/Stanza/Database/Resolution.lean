import Stanza.Database.Profile

/-!
# Database sections

`[database]` and `[database "name"]` become connection profiles. A subsection inherits the raw settings of
the section, never defaulted ones. Where no database for reading is given one is derived from the first
profile, without the settings that only writing needs.
-/

namespace Stanza.Database

def isHeading (key : String) : Bool :=
  "database".toList.isPrefixOf key.toList && !key.toList.contains '\n'

def isHeadingValue : Value → Except Fault Bool
  | .text key => .ok (isHeading key)
  | _ => .ok false

structure Resolution where
  profiles : Section.Resolved Settings
  readProfile : Settings

def Resolution.primary (r : Resolution) : Settings := r.profiles.primary?.getD []

/-- The credentials for migrations, which a database for reading does not have. -/
def migratorKeys : List String := ["migrator-username", "migrator-password"]

def isMigratorKey : Value → Bool
  | .text name => migratorKeys.contains name
  | _ => false

def readProfileOf [Pattern.Compiler] (settings : Settings) : Logged Settings := do
  let profile ← Schema.resolveSection Schema.database settings "read-database"
  (checkSubname profile "read-database" : Except Fault Unit)
  let _ ← (blacklist profile : Except Fault (List Pattern))
  return profile

def deriveReadProfile (primary : Settings) : Except Fault Settings :=
  let shared : Settings := (Section.scalars primary).filter fun e => !isMigratorKey e.1
  let derived := shared.set "read-only?" (.bool true)
  Schema.validateOutgoing Schema.databaseOut (Schema.databaseOut.stripUnknown derived) "read-database"

def readProfile [Pattern.Compiler] (given primary : Value) : Logged Settings :=
  match given, primary with
  | .null, .map entries => (deriveReadProfile entries : Except Fault Settings)
  | .null, _ => Logged.fail .noMember
  | .map settings, _ => readProfileOf settings
  | _, _ =>
    Logged.fail (.config {
      kind := .layout
      message := "error: config section [" ++ Text.quoted "read-database" ++ "] must contain key/value settings" })

/-- The warning on a section that only looks like a database. -/
def strangerWarning? : Value × Section.Entry → Option Warning
  | (.text name, .grouped _) =>
    if name == "database" then none
    else
      some {
        source := .database
        message := "The configuration section [" ++ name
          ++ "] does not exist and should be removed from the config."
        heading? := some name }
  | _ => none

/-- A section with each subsection laid over the section's own settings. -/
def cascade (s : Section) : Section :=
  { s with subsections := s.subsections.map fun (name, settings) => (name, layer (some name) s.settings settings) }

def plainAt (t : Section.Tree) (name : String) : Value :=
  match t.find? (.text name) with
  | some (.plain value) => value
  | _ => .null

def resolve [Pattern.Compiler] (document : Document) : Logged Resolution := do
  let tree ← (Section.coalesce isHeadingValue document : Except Fault Section.Tree)
  Logged.warn (tree.filterMap strangerWarning?)
  let profiles ← (cascade (tree.node "database")).resolve fun name _ settings => fixUp name settings
  for (name, profile) in profiles.toList do
    (validate profile name : Except Fault Unit)
  let primary := profiles.primary?.getD []
  let readProfile ← readProfile (plainAt tree "read-database") (.map primary)
  return { profiles, readProfile }

end Stanza.Database
