import Stanza.Error.Fault
import Stanza.Header
import Stanza.Value.Settings

/-!
# Section trees

A section holds its own settings and named subsections. `coalesce` groups the keys of a document that
name sections; a section or subsection named twice is an error and is never merged.
-/

namespace Stanza

structure Section where
  settings : Settings := []
  subsections : List (String × Settings) := []

/-- A document as it is read: section names with their contents, in order. -/
abbrev Document := List (Value × Value)

namespace Section

inductive Entry where
  | plain (value : Value)
  | grouped (s : Section)

abbrev Tree := List (Value × Entry)

end Section

namespace ConfigError

def notSettings (key : String) (value : Value) : ConfigError where
  kind := .layout
  message := "error: config section [" ++ Text.quoted key ++ "] must contain key/value settings, got "
    ++ value.typeName

def repeatedSubsection (key : String) : ConfigError where
  kind := .layout
  message := "error: multiple [" ++ Text.quoted key ++ "] subsections in config file"

def repeatedSection (key : String) : ConfigError where
  kind := .layout
  message := "error: multiple [" ++ Text.quoted key ++ "] sections in config file"

def misreadSection (name key : String) : ConfigError where
  kind := .invariant
  message := "error: parsed config section [" ++ Text.quoted key ++ "] incorrectly (" ++ Text.quoted name
    ++ " != " ++ Text.quoted key ++ "); please report"

end ConfigError

namespace Section

def hasSubsections (s : Section) : Bool := !s.subsections.isEmpty

def hasSubsection (s : Section) (name : String) : Bool := s.subsections.any (·.1 == name)

namespace Tree

def find? (t : Tree) (key : Value) : Option Entry := (List.find? (fun e => e.1.same key) t).map (·.2)

def insert (t : Tree) (key : Value) (entry : Entry) : Tree :=
  match t with
  | [] => [(key, entry)]
  | e :: rest => if e.1.same key then (e.1, entry) :: rest else e :: insert rest key entry

def node (t : Tree) (name : String) : Section :=
  match t.find? (.text name) with
  | some (.grouped s) => s
  | _ => {}

end Tree

def settingsOf (key : String) : Value → Except ConfigError Settings
  | .null => .ok []
  | .map entries => .ok entries
  | value => .error (.notSettings key value)

/-- The tree so far and the names of the sections whose own settings have been seen. -/
structure Grouping where
  tree : Tree := []
  seen : List String := []

def Grouping.withSubsection (g : Grouping) (name sub : String) (settings : Settings) : Grouping :=
  let node := g.tree.node name
  let extended : Section := { node with subsections := node.subsections ++ [(sub, settings)] }
  { g with tree := g.tree.insert (.text name) (.grouped extended) }

def Grouping.withSettings (g : Grouping) (name : String) (settings : Settings) : Grouping where
  tree := g.tree.insert (.text name) (.grouped { g.tree.node name with settings })
  seen := name :: g.seen

def Grouping.addSection (g : Grouping) (key : String) (value : Value) : Except ConfigError Grouping := do
  let header ← Header.parse ("[" ++ key ++ "]")
  let settings ← settingsOf key value
  match header.subsection with
  | some sub =>
    if (g.tree.node header.name).hasSubsection sub then throw (.repeatedSubsection key)
    return g.withSubsection header.name sub settings
  | none =>
    if header.name ≠ key then throw (.misreadSection header.name key)
    if g.seen.contains header.name then throw (.repeatedSection key)
    return g.withSettings header.name settings

/-- One step of grouping. A key that names a section is a text. -/
def Grouping.add (isHeader : Value → Except Fault Bool) (g : Grouping) :
    Value × Value → Except Fault Grouping
  | (key, value) => do
    if ← isHeader key then
      match key with
      | .text name => (g.addSection name value).mapError .config
      | _ => throw .wrongType
    else if key.isHashable then
      return { g with tree := g.tree.insert key (.plain value) }
    else throw .wrongType

/-- Groups the keys that satisfy `isHeader`; the others are kept as they are. -/
def coalesce (isHeader : Value → Except Fault Bool) (document : Document) : Except Fault Tree :=
  Grouping.tree <$> document.foldlM (Grouping.add isHeader) {}

def scalars (entries : Settings) : Settings := entries.filter fun e => !e.2.isMap

/-- The contents of a section one by one: the subsections, or its own settings if it has none. -/
def profiles (s : Section) : List (Option String × Settings) :=
  if s.hasSubsections then s.subsections.map fun (name, settings) => (some name, settings)
  else [(none, s.settings)]

def fold (f : α → Option String → Settings → α) (init : α) (s : Section) : α :=
  s.profiles.foldl (fun acc (name, settings) => f acc name settings) init

inductive Resolved (α : Type) where
  | sole (result : α)
  | named (results : List (String × α))

namespace Resolved

def toList : Resolved α → List (Option String × α)
  | .sole result => [(none, result)]
  | .named results => results.map fun (name, result) => (some name, result)

def names : Resolved α → List String
  | .sole _ => []
  | .named results => results.map (·.1)

def primary? (r : Resolved α) : Option α := r.toList.head?.map (·.2)

def get? (name : String) : Resolved α → Option α
  | .sole _ => none
  | .named results => results.lookup name

def map (f : α → β) : Resolved α → Resolved β
  | .sole result => .sole (f result)
  | .named results => .named (results.map fun (name, result) => (name, f result))

def toSettings : Resolved Settings → Settings
  | .sole result => result
  | .named results => results.map fun (name, result) => (.text name, .map result)

end Resolved

/-- Resolves the section's own settings first and then each subsection against that result, which counts
itself only if there are no subsections. -/
def resolve [Monad m] (f : Option String → Settings → Settings → m Settings) (s : Section) :
    m (Resolved Settings) := do
  let sectionwide ← f none [] s.settings
  if s.hasSubsections then
    let results ← s.subsections.mapM fun (name, settings) => do
      return (name, ← f (some name) sectionwide settings)
    return .named results
  else return .sole sectionwide

end Section

end Stanza
