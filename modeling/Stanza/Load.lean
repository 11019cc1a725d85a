import Stanza.File.Ini
import Stanza.File.Toml.Document
import Stanza.File.Tree
import Stanza.File.Yaml.Document
import Stanza.Section
import Stanza.Text.Case

/-!
# Loading

Configuration files as documents. In files with nested tables, a table in a section is a subsection. Several
files make one document, in which no section comes from two files.
-/

namespace Stanza.Load

def format? (path : Path) : Option FileFormat :=
  FileFormat.suffixes.lookup (String.ofList (Text.lower path.suffix))

/-- An INI file is read line by line: a line before a fault in the encoding can be wrong first. -/
def iniDocument (path : Path) (bytes : List UInt8) : Except LoadError Document := do
  let (chars, flaw) := Text.decodeUtf8Stream bytes
  let text := Text.unifyLineEnds chars
  let lines := if flaw.isSome then (Text.splitLines text).1 else Ini.allLines text
  let reader ← (Ini.scan (Ini.numbered lines)).mapError (.invalidIni path)
  match flaw with
  | some e => throw (.unreadable path e)
  | none =>
    let sections ← (Ini.finish reader).mapError (.invalidIni path)
    return sections.map fun (name, settings) => (.text name, .map settings)

def tomlSettings (path : Path) (bytes : List UInt8) : Except Fault Settings :=
  match Text.decodeUtf8 bytes with
  | .error e => .error (.undecodable e)
  | .ok text => (Toml.read text).mapError fun
    | .invalid => .load (.invalidToml path)
    | .digitLimit e => .rejected (.digitLimit e)

def yamlSettings [Yaml.Loader] (path : Path) (bytes : List UInt8) : Except Fault Settings := do
  let root ← (Yaml.Loader.load bytes).mapError fun
    | .invalid => .load (.invalidYaml path)
    | .fault (.undecodable e) => .load (.unreadable path e)
    | .fault (.system e) => .load (.unopened path e)
    | .fault f => f
  match root with
  | .null => return []
  | .map entries => return entries
  | _ => throw (.load (.rootNotMapping path))

/-- A section with its subsections. Its own settings are left out if there are none but subsections. -/
def sectionEntries (name : String) (settings : Settings) : Except Fault Document := do
  let own := Section.scalars settings
  let nested := settings.filter (·.2.isMap)
  let subsections ← nested.mapM fun (key, contents) => do
    let header : Header := { name, subsection := some (← digits key.display) }
    return (Value.text header.label, contents)
  return (if own.isEmpty && !nested.isEmpty then [] else [(.text name, .map own)]) ++ subsections

def flatten (path : Path) (root : Settings) : Except Fault Document := do
  let parts ← root.mapM fun (key, value) => do
    match key, value with
    | .text name, .map settings => sectionEntries name settings
    | .text name, value => return [(.text name, value)]
    | key, _ => throw (.load (.sectionNotText path (← digits key.literal)))
  return parts.flatten

def document [Yaml.Loader] (path : Path) (bytes : List UInt8) : FileFormat → Except Fault Document
  | .ini => (iniDocument path bytes).mapError .load
  | .toml => do flatten path (← tomlSettings path bytes)
  | .yaml => do flatten path (← yamlSettings path bytes)

def locate (tree : Tree) (path : Path) : Except Fault Path := (tree.expandHome? path).elim (.error .homeless) .ok

def look (tree : Tree) (path : Path) : Except Fault (Option Tree.Entry) :=
  match tree.find? path with
  | some (.refused .look e) => if e.isAbsence then .ok none else .error (.system e)
  | found => .ok found

def entryDocument [Yaml.Loader] (path : Path) (found : Option Tree.Entry) : Except Fault Document :=
  match found, format? path with
  | some (.file bytes), some format => document path bytes format
  | some (.refused .read e), some _ => .error (.load (.unopened path e))
  | some (.file _), none | some (.refused .read _), none => .error (.load (.unsupported path))
  | _, _ => .error (.load (.notFound path))

def file [Yaml.Loader] (tree : Tree) (path : Path) : Except Fault Document := do
  let path ← locate tree path
  entryDocument path (← look tree path)

def configFile? (tree : Tree) (path : Path) : Except Fault (Option Path) := do
  match ← look tree path with
  | some (.file _) | some (.refused .read _) => return (format? path).map fun _ => path
  | _ => return none

/-- A directory stands for the configuration files in it. -/
def expand (tree : Tree) (candidate : String) : Except Fault (List Path) := do
  let path ← locate tree (Path.ofString candidate)
  match ← look tree path with
  | some (.directory place) =>
    let found ← (tree.names place).mapM fun name => configFile? tree (path.child name.toList)
    return found.filterMap id
  | some (.refused .list e) => throw (.system e)
  | _ => return [path]

structure Merged where
  document : Document := []
  owners : List (String × Path) := []

def Merged.add (m : Merged) (path : Path) (entry : Value × Value) : Except LoadError Merged := do
  match entry.1 with
  | .text name =>
    if let some owner := m.owners.lookup name then
      if owner ≠ path then throw (.definedTwice name owner path)
    return { document := m.document ++ [entry], owners := (name, path) :: m.owners }
  | _ => return { m with document := m.document ++ [entry] }

def filesAt (tree : Tree) (candidates : List String) : Except Fault (List Path) :=
  List.flatten <$> candidates.mapM (expand tree)

def files [Yaml.Loader] (tree : Tree) (candidates : List String) : Except Fault Document := do
  let paths ← filesAt tree candidates
  if paths.isEmpty then throw (.load (.noFiles candidates))
  let merged ← paths.foldlM (fun (m : Merged) path => do
    (← file tree path).foldlM (fun m entry => (m.add path entry).mapError Fault.load) m) {}
  return merged.document

/-- The directory for the data of the service: an absolute path to a directory that can be written to. -/
def dataDirectory (tree : Tree) (path? : Option String) : Except Fault Path := do
  let text := path?.getD ""
  if (Text.trim text.toList).isEmpty then throw (.load .vardirUnset)
  let path := Path.ofString text
  if !path.isAbsolute then throw (.load (.vardirRelative path))
  match ← look tree path with
  | none => throw (.load (.vardirAbsent path))
  | some (.directory _) | some (.refused .list _) =>
    if tree.readOnly.contains (tree.placeOf path) then throw (.load (.vardirReadOnly path))
    return path
  | some _ => throw (.load (.vardirNoDirectory path))

end Stanza.Load
