import Stanza.Pattern.Basic
import Stanza.Schema.Catalogue
import Stanza.Schema.Check
import Stanza.Section

/-!
# Connection profiles

A profile holds the resolved settings of one database. After conversion the retention of events, the user
and the credentials for migrations are filled in from each other, and the checks that concern more than one
setting are made.
-/

namespace Stanza.Database

def label (name : Option String) : String := Header.label { name := "database", subsection := name }

/-- Raw settings of a subsection, laid over those of the section. -/
def layer (name : Option String) (sectionwide settings : Settings) : Settings :=
  match name with
  | none => settings
  | some _ => sectionwide.overlay settings

/-- Events are kept as long as reports unless something else is said. -/
def defaultEventRetention (profile : Settings) : Settings :=
  if (profile.get "resource-events-ttl").isNull && profile.has "report-ttl" then
    profile.set "resource-events-ttl" (profile.get "report-ttl")
  else profile

/-- A value as messages quote it, empty if it is too long to write. -/
def quote (value : Value) : String := value.literal.toOption.getD ""

def mismatchWarnings (name : Option String) (user username : Value) : List Warning :=
  let mismatch := " user " ++ quote user ++ " and username " ++ quote username ++ " don't match"
  let first : Warning :=
    match name with
    | some n =>
      if n.isEmpty then
        { source := .database, message := "Configured database" ++ mismatch, heading? := some "database" }
      else
        { source := .database, message := "Configured " ++ Text.literal n ++ " database" ++ mismatch,
          heading? := some (label (some n)) }
    | none =>
      { source := .database, message := "Configured database" ++ mismatch, heading? := some "database" }
  [first, { source := .database, message := "Preferring configured user " ++ quote user }]

def userOf (profile : Settings) : Value :=
  if (profile.get "user").isTrue then profile.get "user" else profile.get "username"

def withUser (profile : Settings) : Settings :=
  if (userOf profile).isTrue then (profile.set "user" (userOf profile)).set "username" (userOf profile) else profile

/-- Makes `user` and `username` the same; `user` wins. -/
def reconcileUser (profile : Settings) (name : Option String) : Logged Settings := do
  let user := profile.get "user"
  let username := profile.get "username"
  if user.isTrue && username.isTrue && !user.same username then
    Logged.warn (mismatchWarnings name user username)
  return withUser profile

def withMigrator (profile : Settings) : Settings :=
  let withName := profile.setDefault "migrator-username" (profile.get "user")
  match profile.get? "password" with
  | some password => withName.setDefault "migrator-password" password
  | none => withName

/-- Migrations are run by the user with the password of the database unless something else is said. -/
def defaultMigrator (profile : Settings) : Except Fault Settings :=
  if !(profile.get "user").isTrue then
    .error (.config {
      kind := .invariant
      message := "database user must be reconciled before defaulting migrator credentials" })
  else .ok (withMigrator profile)

def fixUp (name : Option String) (settings : Settings) : Logged Settings := do
  let converted ← Schema.resolveSection Schema.writeDatabase settings (label name)
  let profile ← reconcileUser (defaultEventRetention converted) name
  if profile.has "user" then defaultMigrator profile else return profile

def domainError (message : String) : Fault := .config { kind := .domain, message }

def checkSubname (profile : Settings) (heading : String) : Except Fault Unit :=
  match profile.get "subname" with
  | .text s => if Text.isBlankText s then refuse else .ok ()
  | _ => refuse
where
  refuse := .error (domainError ("No subname set in the [" ++ heading ++ "] config."))

def checkRetention (profile : Settings) : Except Fault Unit := do
  let events := profile.get "resource-events-ttl"
  let reports := profile.get "report-ttl"
  if events.isNull || reports.isNull then return ()
  match events with
  | .period e =>
    let kept ← e.toSpan.mapError .outOfRange
    match reports with
    | .period r =>
      if kept.micros > (← r.toSpan.mapError .outOfRange).micros then
        throw (domainError "The setting for resource-events-ttl must not be longer than report-ttl")
    | _ => throw .noMember
  | _ => throw .noMember

def elements : Value → Except Fault (List Value)
  | .list items | .tuple items => .ok items
  | .text s => .ok (s.toList.map fun c => .text (String.ofList [c]))
  | .map entries => .ok (Settings.keys entries)
  | _ => .error .wrongType

section

variable [Pattern.Compiler]

/-- Compiles one pattern of a blacklist; a malformed one is left for the report. -/
def compilePattern : Value → Except Fault (Pattern ⊕ String)
  | .text source =>
    match Pattern.Compiler.compile source with
    | .ok p => .ok (.inl p)
    | .error (.malformed flaw position) => .ok (.inr (source ++ ": " ++ flaw.describe source position))
    | .error .repetition => .error .repetition
    | .error (.digitLimit e) => .error (.rejected (.digitLimit e))
    | .error .charset => .error (.rejected .patternCharset)
  | _ => .error .wrongType

/-- The patterns of a blacklist of facts, if it is one of patterns; all malformed ones are reported. -/
def blacklist (profile : Settings) : Except Fault (List Pattern) := do
  if !(profile.get "facts-blacklist-type").same (.text "regex") then return []
  let listed := profile.get "facts-blacklist"
  if !listed.isTrue then return []
  let compiled ← (← elements listed).mapM compilePattern
  match compiled.filterMap (·.getRight?) with
  | [] => return compiled.filterMap (·.getLeft?)
  | problems =>
    throw (domainError
      ("Unable to parse facts-blacklist patterns:\n" ++ "\n".intercalate problems))

def validate (profile : Settings) (name : Option String) : Except Fault Unit := do
  checkSubname profile (label name)
  checkRetention profile
  let _ ← blacklist profile

end

end Stanza.Database
