import Stanza.File.Tree
import Stanza.Log.Record

/-!
# Loggers and their setup

Loggers form a tree by the dots in their names. Setting up a logger gives it handlers that write to a stream
and perhaps a file, and stops it from handing records on; shutting down undoes that. At most one setup is
active.
-/

namespace Stanza.Log

inductive Sink where
  /-- The stream of a setup. -/
  | stream (setup : Nat)
  /-- The log file of a setup. -/
  | file (setup : Nat) (path : Path)
  /-- A handler that was not set up here and does nothing. -/
  | foreign
  deriving DecidableEq

structure Handler where
  sink : Sink
  level : Level := .unset
  format : Format := .text
  redactor : Redactor := redact

structure Logger where
  level : Level := .unset
  handsOn : Bool := true
  handlers : List Handler := []

structure Setup where
  level : Value := .text "WARNING"
  format : Value := .text "text"
  logger : Value := .text "pdbconf"
  file? : Option String := none
  redactor : Redactor := redact

structure Handle where
  logger : String
  previousLevel : Level
  previouslyHandsOn : Bool
  isDown : Bool := false
  /-- What has been written to the stream. -/
  written : String := ""

structure RootRecord where
  level : String
  logger : String
  message : String

structure Registry where
  loggers : List (String × Logger) := []
  handles : List Handle := []
  active : Option Nat := none
  files : Tree
  reached : List RootRecord := []

namespace Registry

def rootName : String := "root"

def nameOf (name : String) : String := if name.isEmpty then rootName else name

def logger (r : Registry) (name : String) : Logger :=
  (r.loggers.lookup (nameOf name)).getD (if nameOf name = rootName then { level := .warning } else {})

def setLogger (r : Registry) (name : String) (l : Logger) : Registry :=
  { r with loggers := (nameOf name, l) :: r.loggers.filter (·.1 != nameOf name) }

/-- The name up to its last dot, unless that is its first character. -/
def parent? (name : List Char) : Option (List Char) :=
  let before := ((name.reverse.dropWhile (· != '.')).drop 1).reverse
  if before.isEmpty then none else some before

theorem parent?_length {name before : List Char} (h : parent? name = some before) :
    before.length < name.length := by
  unfold parent? at h
  simp only at h
  split at h
  · simp at h
  · rename_i hne
    have hle := (List.dropWhile_suffix (· != '.') (l := name.reverse)).length_le
    rw [List.length_reverse] at hle
    simp only [Option.some.injEq] at h
    subst h
    rw [List.length_reverse, List.length_drop]
    have : (List.dropWhile (· != '.') name.reverse).length ≠ 0 := by
      intro h0
      apply hne
      simp [List.length_eq_zero_iff.1 h0]
    omega

def lineage (name : List Char) : List String :=
  if String.ofList name = rootName then [rootName]
  else
    match _h : parent? name with
    | some before => String.ofList name :: lineage before
    | none => [String.ofList name, rootName]
termination_by name.length
decreasing_by exact parent?_length _h

def line (r : Registry) (name : String) : List (String × Logger) :=
  (lineage (nameOf name).toList).map fun n => (n, r.logger n)

def effectiveLevel (r : Registry) (name : String) : Level :=
  (((r.line name).map (·.2.level)).find? Level.isSet).getD .unset

def audience : List (String × Logger) → List (String × Logger)
  | [] => []
  | l :: rest => if l.2.handsOn then l :: audience rest else [l]

def changeHandle (r : Registry) (i : Nat) (f : Handle → Handle) : Registry :=
  { r with handles := r.handles.modify i f }

def utf8 (s : String) : List UInt8 := s.toUTF8.toList

def emit (record : Record) (r : Registry) (h : Handler) : Registry :=
  if record.level < h.level.weight then r
  else
    match h.sink, h.format.set? h.redactor record with
    | .stream i, some text =>
      r.changeHandle i fun handle => { handle with written := handle.written ++ text ++ "\n" }
    | .file _ path, some text => { r with files := r.files.append path (utf8 (text ++ "\n")) }
    | _, _ => r

/-- Whether records of a level are let through: it is positive and at least the logger's level. -/
def isEnabled (r : Registry) (name : String) (level : Int) : Bool :=
  0 < level && (r.effectiveLevel name).weight ≤ level

def reach (r : Registry) (record : Record) : Registry :=
  match record.text? with
  | some message =>
    { r with reached := r.reached ++ [⟨Level.label record.level, record.logger, message⟩] }
  | none => r

def log (r : Registry) (record : Record) : Except Fault Registry :=
  if r.isEnabled record.logger record.level then
    match record.clash? with
    | some field =>
      .error (.missingKey (Text.literal ("Attempt to overwrite " ++ Text.literal field ++ " in LogRecord")))
    | none =>
      let seen := audience (r.line record.logger)
      let r := (seen.flatMap (·.2.handlers)).foldl (emit record) r
      .ok (if seen.any (·.1 == rootName) then r.reach record else r)
  else .ok r

def Handler.belongsTo (h : Handler) (i : Nat) : Bool :=
  match h.sink with
  | .stream j | .file j _ => i = j
  | .foreign => false

def shutDown (r : Registry) (i : Nat) : Registry :=
  match r.handles[i]? with
  | none => r
  | some handle =>
    if handle.isDown then r
    else
      let l := r.logger handle.logger
      let l : Logger := {
        level := handle.previousLevel
        handsOn := handle.previouslyHandsOn
        handlers := l.handlers.filter fun h => !Handler.belongsTo h i }
      (r.setLogger handle.logger l).changeHandle i fun handle => { handle with isDown := true }

/-- Undoes a setup, the active one if none is given, which then is active no longer. -/
def close (r : Registry) (which : Option Nat) : Registry :=
  match which.or r.active with
  | none => r
  | some i =>
    let r := r.shutDown i
    if r.active = some i then { r with active := none } else r

def loggerName : Value → Except Rejection String
  | .text s =>
    match Text.trim s.toList with
    | [] => .error .emptyLoggerName
    | name => .ok (String.ofList name)
  | value => .error (.loggerNameType value.typeName)

/-- Sets up a logger after undoing the active setup, even if nothing comes of it. The other handlers of the
logger are dropped. -/
def setUp (r : Registry) (s : Setup) : Registry × Except Fault Unit :=
  let r := { r.close none with active := none }
  let checked : Except Fault (Level × String × Format) := do
    let level ← (Level.ofValue s.level).mapError Fault.rejected
    let name ← (loggerName s.logger).mapError Fault.rejected
    return (level, name, ← Format.ofValue s.format)
  match checked with
  | .error e => (r, .error e)
  | .ok (level, name, format) =>
    let i := r.handles.length
    let handler (sink : Sink) : Handler := { sink, level, format, redactor := s.redactor }
    let path? := s.file?.map Path.ofString
    let sinks := .stream i :: (path?.map (Sink.file i)).toList
    let before := r.logger name
    let files := (path?.map fun p => r.files.append p []).getD r.files
    let handle : Handle :=
      { logger := name, previousLevel := before.level, previouslyHandsOn := before.handsOn }
    let r := { r with files, handles := r.handles ++ [handle], active := some i }
    (r.setLogger name { level, handsOn := false, handlers := sinks.map handler }, .ok ())

def attach (r : Registry) (name : String) : Registry :=
  let l := r.logger name
  r.setLogger name { l with handlers := l.handlers ++ [{ sink := .foreign }] }

def collect (r : Registry) : List String × List RootRecord × Registry :=
  (r.handles.map (·.written), r.reached,
    { r with handles := r.handles.map fun h => { h with written := "" }, reached := [] })

end Registry

end Stanza.Log
