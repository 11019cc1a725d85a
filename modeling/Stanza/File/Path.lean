import Stanza.Text.Literal

/-!
# Paths

A path is a root, which is nothing, one slash or two, and the names below it. Empty names and `.` are
dropped; `..` is kept. The suffix of its name tells the format of a configuration file.
-/

namespace Stanza

structure Path where
  root : List Char
  parts : List (List Char)
  deriving DecidableEq

namespace Path

def rootOf (cs : List Char) : List Char :=
  match (cs.takeWhile (· == '/')).length with
  | 0 => []
  | 2 => ['/', '/']
  | _ => ['/']

def names (cs : List Char) : List (List Char) :=
  (cs.splitOn '/').filter fun name => !name.isEmpty && name != ['.']

def ofChars (cs : List Char) : Path := ⟨rootOf cs, names cs⟩

def ofString (s : String) : Path := ofChars s.toList

def chars (p : Path) : List Char :=
  match p.root, p.parts with
  | [], [] => ['.']
  | root, parts => root ++ List.intercalate ['/'] parts

def text (p : Path) : String := String.ofList p.chars

def isAbsolute (p : Path) : Bool := !p.root.isEmpty

def child (p : Path) (name : List Char) : Path := { p with parts := p.parts ++ [name] }

def parent (p : Path) : Path := { p with parts := p.parts.dropLast }

def name (p : Path) : List Char := p.parts.getLast?.getD []

/-- The last dot of the name and what follows it, unless the dot is the first or the last character. -/
def suffix (p : Path) : List Char :=
  let reversed := p.name.reverse
  let after := reversed.takeWhile (· != '.')
  let before := (reversed.dropWhile (· != '.')).drop 1
  if before.isEmpty || after.isEmpty then [] else '.' :: after.reverse

end Path

inductive FileFormat where
  | ini
  | toml
  | yaml
  deriving DecidableEq

/-- In alphabetical order. -/
def FileFormat.suffixes : List (String × FileFormat) :=
  [(".conf", .ini), (".ini", .ini), (".toml", .toml), (".yaml", .yaml), (".yml", .yaml)]

structure SystemError where
  number : Nat
  reason : String
  path : Path
  deriving DecidableEq

namespace SystemError

def message (e : SystemError) : String :=
  "[Errno " ++ toString e.number ++ "] " ++ e.reason ++ ": " ++ Text.literal e.path.text

/-- No such file, no directory on the way, a bad descriptor, or too many links: there is nothing at the path. -/
def isAbsence (e : SystemError) : Bool := [2, 20, 9, 40].contains e.number

end SystemError

end Stanza
