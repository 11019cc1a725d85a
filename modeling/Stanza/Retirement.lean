import Stanza.Database.Resolution

/-!
# Retired settings

Settings that no longer have a meaning are ignored with a notice. A prefix of the URL must not be set at
all, since the service has a fixed route.
-/

namespace Stanza.Retirement

def commandProcessingKeys : List String := ["max-frame-size", "memory-usage", "store-usage", "temp-usage"]

def databaseKeys : List String :=
  ["classname", "conn-keep-alive", "log-slow-statements", "statements-cache-size", "subprotocol"]

def globalKeys : List String := ["catalog-hash-conflict-debugging"]

def blocks : List (String × String) := [("repl", "nrepl")]

/-- A setting that the service must not start with. -/
structure FatalSetting where
  heading : String
  key : String
  message : String

structure Report where
  notices : List String := []
  fatal : List FatalSetting := []

def Report.exitRequired (r : Report) : Bool := !r.fatal.isEmpty

def sets (contents : Value) (key : String) : Bool :=
  match contents with
  | .map entries => Settings.has entries key
  | _ => false

def optionNotice (heading key : String) : String :=
  "The [" ++ heading ++ "] " ++ key ++ " config option has been retired and will be ignored."

def blockNotice (block replacement : String) : String :=
  "The configuration block [" ++ block ++ "] is now retired and will be ignored. Use [" ++ replacement
    ++ "] instead. Consult the documentation for more details."

def noticesIn (heading : String) (contents : Value) (keys : List String) : List String :=
  (keys.filter (sets contents)).map (optionNotice heading)

def databaseNotices (document : Settings) : List String :=
  document.flatMap fun
    | (.text name, contents) =>
      if Database.isHeading name || name == "read-database" then noticesIn name contents databaseKeys else []
    | _ => []

def notices (document : Settings) : List String :=
  noticesIn "command-processing" (document.get "command-processing") commandProcessingKeys
    ++ databaseNotices document
    ++ noticesIn "global" (document.get "global") globalKeys
    ++ (blocks.filter fun b => document.has b.1).map fun (block, replacement) => blockNotice block replacement

def urlPrefix : FatalSetting where
  heading := "global"
  key := "url-prefix"
  message := "The configuration item `url-prefix` in the [global] section is retired, "
    ++ "please remove this item from your config. PuppetDB has a non-configurable context route of `/pdb`. "
    ++ "Consult the documentation for more details."

/-- Looks for retired settings; each notice is a warning as well. -/
def check (document : Settings) : Logged Report := do
  let found := notices document
  Logged.warn (found.map fun message => { source := .retirements, message })
  let fatal := if sets (document.get "global") urlPrefix.key then [urlPrefix] else []
  return { notices := found, fatal }

end Stanza.Retirement
