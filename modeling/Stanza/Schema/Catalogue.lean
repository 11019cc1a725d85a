import Stanza.Schema.Spec

/-!
# The sections of the service

What users may write in each section, with the defaults, and what becomes of it.
-/

namespace Stanza

/-- What the defaults of command processing are worked out from. -/
structure Host where
  cpus : Int
  memory : Int

namespace Host

def half (host : Host) : Int := max (Int.fdiv host.cpus 2) 1

def commandSize (host : Host) : Int := Int.fdiv host.memory 205

def writes (host : Host) : Int := min host.half 4

end Host

namespace Schema

def wholeIn (name : String) (default : Default := .none) : Incoming := { name, shape := .integer, default }
def textIn (name : String) (default : Default := .none) : Incoming := { name, shape := .text, default }
def flagIn (name : String) (default : Default := .none) : Incoming := { name, shape := .boolean, default }

def wholeDefault (n : Int) : Default := .fixed (.int n)
def textDefault (s : String) : Default := .fixed (.text s)

def needed (name : String) (kind : Kind) : Outgoing := { name, kind }
def optional (name : String) (kind : Kind) : Outgoing := { name, kind, optional := true }

def Outgoing.from (field : Outgoing) (minimum : Int) : Outgoing := { field with minimum := some minimum }

def blacklistTypes : List String := ["literal", "regex"]

def databaseIn : Spec Incoming where
  fields := [
    wholeIn "conn-max-age" (wholeDefault 60),
    wholeIn "conn-lifetime",
    wholeIn "maximum-pool-size" (wholeDefault 25),
    textIn "subname",
    textIn "user",
    textIn "username",
    textIn "password",
    textIn "migrator-username",
    textIn "migrator-password",
    textIn "syntax_pgs",
    flagIn "read-only?" (textDefault "false"),
    wholeIn "partition-conn-min" (wholeDefault 1),
    wholeIn "partition-conn-max" (wholeDefault 25),
    wholeIn "partition-count" (wholeDefault 1),
    flagIn "stats" (textDefault "true"),
    flagIn "log-statements" (textDefault "true"),
    wholeIn "connection-timeout" (wholeDefault 3000),
    { name := "facts-blacklist", shape := .textOrList },
    { name := "facts-blacklist-type", shape := .choice, default := textDefault "literal",
      choices := blacklistTypes },
    wholeIn "schema-check-interval" (wholeDefault 30000),
    textIn "classname" (textDefault "org.postgresql.Driver"),
    wholeIn "conn-keep-alive",
    wholeIn "log-slow-statements",
    wholeIn "statements-cache-size",
    textIn "subprotocol" (textDefault "postgresql")]

def databaseOut : Spec Outgoing where
  fields := [
    optional "subname" .text,
    (needed "conn-max-age" .minutes).from 0,
    needed "read-only?" .boolean,
    needed "partition-conn-min" .integer,
    needed "partition-conn-max" .integer,
    needed "partition-count" .integer,
    needed "stats" .boolean,
    needed "log-statements" .boolean,
    needed "connection-timeout" .integer,
    needed "maximum-pool-size" .integer,
    (optional "conn-lifetime" .minutes).from 0,
    optional "user" .text,
    optional "username" .text,
    optional "password" .text,
    optional "migrator-username" .text,
    optional "migrator-password" .text,
    optional "syntax_pgs" .text,
    optional "facts-blacklist" .texts,
    { name := "facts-blacklist-type", kind := .choice, choices := blacklistTypes },
    needed "schema-check-interval" .integer,
    needed "classname" .text,
    (optional "conn-keep-alive" .minutes).from 0,
    (optional "log-slow-statements" .days).from 0,
    optional "statements-cache-size" .integer,
    needed "subprotocol" .text]

def database : SectionSpec := ⟨databaseIn, databaseOut⟩

def writeDatabase : SectionSpec where
  incoming := databaseIn.extend [
    wholeIn "gc-interval" (wholeDefault 60),
    textIn "report-ttl" (textDefault "14d"),
    textIn "node-purge-ttl" (textDefault "14d"),
    wholeIn "node-purge-gc-batch-limit" (wholeDefault 25),
    textIn "node-ttl" (textDefault "7d"),
    textIn "resource-events-ttl",
    flagIn "migrate" (textDefault "true")]
  outgoing := databaseOut.extend [
    (needed "gc-interval" .minutes).from 0,
    needed "report-ttl" .period,
    needed "node-purge-ttl" .period,
    (needed "node-purge-gc-batch-limit" .integer).from 0,
    needed "node-ttl" .period,
    optional "resource-events-ttl" .period,
    needed "migrate" .boolean]

def puppetdb : SectionSpec where
  incoming := ⟨[
    textIn "certificate-whitelist",
    wholeIn "historical-catalogs-limit" (wholeDefault 0),
    flagIn "disable-update-checking" (textDefault "false"),
    flagIn "add-agent-report-filter" (textDefault "true")]⟩
  outgoing := ⟨[
    optional "certificate-whitelist" .text,
    needed "historical-catalogs-limit" .integer,
    needed "disable-update-checking" .boolean,
    needed "add-agent-report-filter" .boolean]⟩

def developer : SectionSpec where
  incoming := ⟨[
    flagIn "pretty-print" (textDefault "false"),
    wholeIn "max-enqueued" (wholeDefault 1000000)]⟩
  outgoing := ⟨[
    needed "pretty-print" .boolean,
    needed "max-enqueued" .integer]⟩

def commandProcessing (host : Host) : SectionSpec where
  incoming := ⟨[
    wholeIn "threads" (.computed (.int host.half)),
    wholeIn "max-command-size" (.computed (.int host.commandSize)),
    flagIn "reject-large-commands" (textDefault "false"),
    wholeIn "concurrent-writes" (.computed (.int host.writes)),
    wholeIn "max-frame-size" (wholeDefault 209715200),
    wholeIn "store-usage",
    wholeIn "temp-usage",
    wholeIn "memory-usage"]⟩
  outgoing := ⟨[
    (needed "threads" .integer).from 1,
    (needed "max-command-size" .integer).from 0,
    needed "reject-large-commands" .boolean,
    (needed "concurrent-writes" .integer).from 1,
    needed "max-frame-size" .integer,
    optional "memory-usage" .integer,
    optional "store-usage" .integer,
    optional "temp-usage" .integer]⟩

end Schema

end Stanza
