import Std.Time.DateTime.Timestamp
import Stanza.Command.Run

/-!
# The command line

Looks at the files that the command line names, at the machine and at the clock, carries out the run, and
prints what comes of it.
-/

namespace Stanza

def Path.stages (p : Path) : List Path :=
  (List.range (p.parts.length + 1)).map fun n => { p with parts := p.parts.take n }

def labelled? (label : String) (lines : List String) : Option Nat :=
  lines.findSome? fun line =>
    if line.startsWith label then (String.ofList (line.toList.filter Char.isDigit)).toNat? else none

def Host.ofLines (processors memory : List String) : Host where
  cpus := max ((processors.filter (·.startsWith "processor")).length : Int) 1
  memory := ((labelled? "MemTotal" memory).getD 0 * 1024 : Nat)

def linesOf (name : String) : IO (List String) := do
  match ← (IO.FS.lines name).toBaseIO with
  | .ok lines => return lines.toList
  | .error _ => return []

def homeOf? (line : String) : Option (List Char × Path) :=
  match line.splitOn ":" with
  | [name, _, _, _, _, home, _] => some ('~' :: name.toList, Path.ofString home)
  | _ => none

def SystemError.ofFailure (p : Path) : IO.Error → SystemError
  | .permissionDenied _ code details => ⟨code.toNat, details, p⟩
  | e => ⟨5, toString e, p⟩

def Tree.observeFile (t : Tree) (p : Path) : IO Tree := do
  match ← (IO.FS.readBinFile p.text).toBaseIO with
  | .ok bytes => return { t with files := t.files ++ [(t.placeOf p, bytes.toList)] }
  | .error e => return { t with refusals := t.refusals ++ [(t.placeOf p, .read, .ofFailure p e)] }

/-- Adds what is at a path, with the directories on the way and the configuration files in it. -/
def Tree.observe (t : Tree) (p : Path) : IO Tree := do
  let here ← IO.currentDir
  let directories ← p.stages.filterM fun stage => (here / stage.text).isDir
  let t := { t with dirs := t.dirs ++ directories.map t.placeOf }
  if ← (here / p.text).isDir then
    match ← (here / p.text).readDir.toBaseIO with
    | .ok entries =>
      entries.toList.foldlM (fun t entry => do
        let inner := p.child entry.fileName.toList
        if ← entry.path.isDir then return { t with dirs := t.dirs ++ [t.placeOf inner] }
        else if (Load.format? inner).isNone then return t
        else t.observeFile inner) t
    | .error e => return { t with refusals := t.refusals ++ [(t.placeOf p, .list, .ofFailure p e)] }
  else if ← (here / p.text).pathExists then t.observeFile p
  else return t

def Tree.atPaths (paths : List Path) : IO Tree := do
  let home := (Path.ofString (← IO.currentDir).toString).parts
  let own := (← IO.getEnv "HOME").map fun h => (['~'], Path.ofString h)
  let homes := own.toList ++ (← linesOf "/etc/passwd").filterMap homeOf?
  let t : Tree := { home, homes }
  (paths.filterMap t.expandHome?).foldlM Tree.observe t

/-- The path of a data directory that was not found among the observed ones. -/
def Command.Ending.unseen? : Command.Ending → Option Path
  | .failed (.load (.vardirAbsent p)) => some p
  | _ => none

def Command.helpText : String :=
  "usage: pdbconf check|dump [-h] [--log-level LEVEL] [--log-format text|json] "
    ++ "[--check-vardir | --json] paths [paths ...]\n"

end Stanza

open Stanza Stanza.Command in
def main (words : List String) : IO UInt32 := do
  let paths := match Request.parse words with
    | .ok q => q.paths.map Path.ofString
    | .error _ => []
  let host := Host.ofLines (← linesOf "/proc/cpuinfo") (← linesOf "/proc/meminfo")
  let nanoseconds := (← Std.Time.Timestamp.now).toNanosecondsSinceUnixEpoch.toInt
  let now := Value.float (Float.ofInt nanoseconds / 1e9)
  let files ← Tree.atPaths paths
  let first := run { files, host, now } words
  let final ← match first.ending.unseen? with
    | some p => do pure (run { files := ← files.observe p, host, now } words)
    | none => pure first
  IO.eprint (final.log ++ final.ending.complaint)
  match final.ending with
  | .done output => IO.print output
  | .stopped (.help _) => IO.print helpText
  | _ => pure ()
  match final.ending.status with
  | .int n => return n.toNat.toUInt32
  | _ => return ExitCode.internal.number.toUInt32
