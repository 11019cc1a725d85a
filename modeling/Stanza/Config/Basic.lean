import Stanza.Config.Frozen
import Stanza.Database.Resolution

/-!
# Resolved configurations

A configuration holds the settings of every section of the service, and the other sections of the document
as they are. Its lists are tuples; `copy` gives them back as lists.
-/

namespace Stanza

structure Config where
  profiles : Section.Resolved Settings
  readProfile : Settings
  commandProcessing : Settings
  puppetdb : Settings
  developer : Settings
  globals : Settings
  extra : Settings

namespace Config

/-- The database block: a profile, or a mapping from names to profiles. -/
def database (c : Config) : Settings := c.profiles.toSettings

def primary (c : Config) : Settings := c.profiles.primary?.getD []

def isProduct (c : Config) (name : String) : Bool := (c.globals.get "product-name").same (.text name)

def updateServer (c : Config) : Value := c.globals.get "update-server"

def threads (c : Config) : Value := c.commandProcessing.get "threads"

def rejectsLargeCommands (c : Config) : Bool := (c.commandProcessing.get "reject-large-commands").isTrue

def maxCommandSize (c : Config) : Value := c.commandProcessing.get "max-command-size"

/-- The directory for commands that wait, if there is a directory for data. -/
def stockpile? (c : Config) : Except Fault (Option Path) := do
  let vardir := c.globals.get "vardir"
  if !vardir.isTrue then return none
  return some ((Path.ofString (← digits vardir.frozenDisplay)).child "stockpile".toList)

/-- All sections as one mapping with lists for tuples: the other sections of the document first. -/
def copy (c : Config) : Settings :=
  let blocks : Settings := [
    (.text "global", .map c.globals),
    (.text "developer", .map c.developer),
    (.text "database", .map c.database),
    (.text "read-database", .map c.readProfile),
    (.text "command-processing", .map c.commandProcessing),
    (.text "puppetdb", .map c.puppetdb)]
  Settings.overlay (thawEntries c.extra) (thawEntries blocks)

def blacklist [Pattern.Compiler] (c : Config) (subsection : Option String) : Except Fault (List Pattern) :=
  match subsection with
  | none => Database.blacklist c.primary
  | some name =>
    match c.database.get? name with
    | none => .error (.missingKey (Text.literal name))
    | some (.map profile) => Database.blacklist profile
    | some _ => .error .noMember

end Config

end Stanza
