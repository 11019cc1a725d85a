import Stanza.Command.Arguments
import Stanza.Command.Dump
import Stanza.Command.Exit
import Stanza.Load
import Stanza.Log.Registry

/-!
# The program

A run reads its command line, loads and resolves configuration files, and checks or shows the result. What it
logs on the way comes before the reason for a failure.
-/

namespace Stanza.Command

structure Surroundings where
  files : Tree
  host : Host
  /-- Seconds since the start of 1970. -/
  now : Value
  /-- The characters that the output can be encoded with. -/
  encodes : Char → Bool := fun _ => true

inductive Ending where
  | done (output : String)
  /-- The command line asks for help, or is wrong. -/
  | stopped (stop : Stop)
  /-- Retired settings prevent the start of the service. -/
  | retired (messages : List String)
  | failed (e : Fault)

structure Run where
  /-- The lines that were logged. -/
  log : String := ""
  ending : Ending

def commonOptions : List (String × Flag) :=
  [("-h", .help), ("--help", .help), ("--log-level", .logLevel), ("--log-format", .logFormat)]

def mainGrammar : Grammar where
  program := "pdbconf"
  options := [("-h", .help), ("--help", .help)]
  operand := "command"
  choices := ["check", "dump"]
  takesRest := true

def checkGrammar : Grammar where
  program := "pdbconf check"
  options := commonOptions ++ [("--check-vardir", .checkVardir)]
  operand := "paths"

def dumpGrammar : Grammar where
  program := "pdbconf dump"
  options := commonOptions ++ [("--json", .json)]
  operand := "paths"

inductive Task where
  | check (vardir : Bool)
  | dump (json : Bool)
  deriving DecidableEq

structure Request where
  task : Task
  paths : List String
  logLevel : String
  logFormat : String
  deriving DecidableEq

def Request.ofParsed (task : Task) (p : Parsed) : Request where
  task
  paths := p.operand.getD []
  logLevel := (p.value? .logLevel).getD "WARNING"
  logFormat := (p.value? .logFormat).getD "text"

def Request.parse (words : List String) : Except Stop Request := do
  let p ← mainGrammar.parse words
  match p.operand with
  | some (command :: rest) =>
    let (inner, request) ←
      if command == "check" then
        (fun q => (q, Request.ofParsed (.check (q.has .checkVardir)) q)) <$> checkGrammar.parse rest
      else (fun q => (q, Request.ofParsed (.dump (q.has .json)) q)) <$> dumpGrammar.parse rest
    let unknown := p.leftOver ++ inner.leftOver
    if unknown.isEmpty then return request
    else throw (.usage mainGrammar.program ("unrecognized arguments: " ++ " ".intercalate unknown))
  | _ => throw (.usage mainGrammar.program ("the following arguments are required: " ++ mainGrammar.operand))

def vardir? (c : Config) : Except Fault (Option String) := do
  match c.globals.get "vardir" with
  | .null => return none
  | .text s => return some s
  | value => do
    let _ ← digits value.display
    throw .wrongType

/-- The line for a configuration that is fine, and one for each notice. -/
def checkText (c : Config) (r : Retirement.Report) : Except Fault String := do
  let names := c.profiles.toList.map fun p => p.1.getD "default"
  let product ← digits (c.globals.get "product-name").display
  let first := "ok: product " ++ product ++ "; database profiles: " ++ ", ".intercalate names
  return String.join ((first :: r.notices.map ("notice: " ++ ·)).map (· ++ "\n"))

def Task.output (task : Task) (s : Surroundings) (c : Config) (r : Retirement.Report) : Except Fault String := do
  match task with
  | .check vardir =>
    if vardir then
      let _ ← Load.dataDirectory s.files (← vardir? c)
    checkText c r
  | .dump true => Dump.json c
  | .dump false => Dump.text c s.host

def Request.resolve [Yaml.Loader] [Pattern.Compiler] (q : Request) (s : Surroundings) : Logged Outcome := do
  let document ← (Load.files s.files q.paths : Except Fault Document)
  Outcome.ofDocument document s.host

def Surroundings.print (s : Surroundings) (text : String) : Ending :=
  if text.toList.all s.encodes then .done text else .failed .unencodable

def Request.ending (q : Request) (s : Surroundings) (resolved : Except Fault Outcome) : Ending :=
  match resolved with
  | .error e => .failed e
  | .ok outcome =>
    if outcome.report.exitRequired then .retired (outcome.report.fatal.map (·.message))
    else
      let output := do q.task.output s (← outcome.require.mapError Fault.config) outcome.report
      match output with
      | .ok text => s.print text
      | .error e => .failed e

def recordOf (now : Value) (w : Warning) : Log.Record where
  level := 30
  logger := w.source.logger
  message := .text w.message
  extra := (w.heading?.map fun h => (Value.text "section", Value.text h)).toList
    ++ (w.key?.map fun k => (Value.text "key", k)).toList
  created := now

def logAll (now : Value) (r : Log.Registry) (warnings : List Warning) : Log.Registry :=
  warnings.foldl (fun r w => (r.log (recordOf now w)).toOption.getD r) r

def Request.run [Yaml.Loader] [Pattern.Compiler] (q : Request) (s : Surroundings) : Run :=
  match Log.Registry.setUp { files := s.files } { level := .text q.logLevel, format := .text q.logFormat } with
  | (_, .error e) => { ending := .failed e }
  | (registry, .ok ()) =>
    let resolved := q.resolve s
    let (written, _, _) := (logAll s.now registry resolved.warnings).collect
    { log := String.join written, ending := q.ending s resolved.result }

def run [Yaml.Loader] [Pattern.Compiler] (s : Surroundings) (words : List String) : Run :=
  match Request.parse words with
  | .error stop => { ending := .stopped stop }
  | .ok q => q.run s

/-- What the program returns: the code that the run gives of itself, or the one that its failure has. -/
def Ending.status : Ending → Value
  | .done _ | .stopped (.help _) => (settle (.int 0)).1
  | .retired _ => (settle (.int 1)).1
  | .stopped (.usage ..) => (settle (.int 2)).1
  | .failed e => .int (ExitCode.ofChain e.chain).number

def dropLineEnds (s : String) : String :=
  String.ofList ((s.toList.reverse.dropWhile (· == '\n')).reverse)

def Ending.complaint : Ending → String
  | .done _ | .stopped (.help _) => ""
  | .stopped (.usage program message) => program ++ ": error: " ++ message ++ "\n"
  | .retired messages => "error: " ++ "\n".intercalate messages ++ "\n"
  | .failed e => dropLineEnds (String.ofList (Text.trim e.message.toList)) ++ "\n"

end Stanza.Command
