import Stanza.File.Path

/-!
# File trees

The directories and files below the root, the directory that relative paths start from, the home directories, and what
the operating system refuses. What `..` means is decided step by step: a path goes only through directories that are
there.
-/

namespace Stanza

abbrev Place := List (List Char)

inductive Access where
  | look
  | list
  | read
  deriving DecidableEq

structure Tree where
  home : Place
  files : List (Place × List UInt8) := []
  dirs : List Place := []
  /-- What cannot be looked at, the directories that cannot be listed, and the files that cannot be read. -/
  refusals : List (Place × Access × SystemError) := []
  /-- The directories that cannot be written to. -/
  readOnly : List Place := []
  /-- What `~` and `~name` stand for. -/
  homes : List (List Char × Path) := []

namespace Tree

inductive Entry where
  | file (bytes : List UInt8)
  | directory (place : Place)
  | refused (access : Access) (e : SystemError)

/-- A directory is there if it was made, or for the sake of what is in it. -/
def isDirectory (t : Tree) (place : Place) : Bool :=
  place.isPrefixOf t.home || t.dirs.any (place.isPrefixOf ·)
    || t.files.any fun f => place.isPrefixOf f.1.dropLast

def walk (t : Tree) (start : Place) : List (List Char) → Option Entry
  | [] => some (.directory start)
  | name :: rest =>
    if name = ['.', '.'] then t.walk start.dropLast rest
    else
      let place := start ++ [name]
      match t.refusals.lookup place, rest with
      | some (.look, e), _ => some (.refused .look e)
      | some (access, e), [] => some (.refused access e)
      | _, _ =>
        if t.isDirectory place then t.walk place rest
        else if rest.isEmpty then (t.files.lookup place).map .file
        else none

def find? (t : Tree) (p : Path) : Option Entry :=
  if p.parts.any (·.contains '\x00') then none
  else t.walk (if p.isAbsolute then [] else t.home) p.parts

/-- A relative path that starts with a tilde starts at a home directory, if that is known. -/
def expandHome? (t : Tree) (p : Path) : Option Path :=
  match p.root, p.parts with
  | [], ('~' :: user) :: rest => (t.homes.lookup ('~' :: user)).map fun h => { h with parts := h.parts ++ rest }
  | _, _ => some p

def names (t : Tree) (place : Place) : List String :=
  let below (other : Place) : Option String :=
    if place.isPrefixOf other then (other.drop place.length).head?.map String.ofList else none
  let found := (t.home :: t.dirs ++ t.files.map (·.1)).filterMap below
  found.eraseDups.mergeSort (fun a b => a ≤ b)

def placeOf (t : Tree) (p : Path) : Place :=
  let start : Place := if p.isAbsolute then [] else t.home
  p.parts.foldl (fun place name => if name = ['.', '.'] then place.dropLast else place ++ [name]) start

def append (t : Tree) (p : Path) (bytes : List UInt8) : Tree :=
  let place := t.placeOf p
  if (t.files.lookup place).isSome then
    { t with files := t.files.map fun f => if f.1 = place then (f.1, f.2 ++ bytes) else f }
  else { t with files := t.files ++ [(place, bytes)] }

end Tree

end Stanza
