import Stanza.File.Toml.Scalar

/-!
# TOML documents

A document is a sequence of lines that name a table, append one to an array of tables, or set a value.
Tables that a line has named, and what a value holds, are closed to later lines in the ways that `Marks`
records.
-/

namespace Stanza.Toml

abbrev Key := List String

inductive Mark where
  /-- It has been named and is not named again. -/
  | named
  /-- It is part of a value and does not change. -/
  | fixed
  deriving DecidableEq

/-- A mark on the table under a key; a deep mark holds for all tables below as well. -/
structure Marked where
  key : Key
  mark : Mark
  deep : Bool

abbrev Marks := List Marked

def Marks.has (ms : Marks) (key : Key) (mark : Mark) : Bool :=
  !key.isEmpty && ms.any fun m => m.mark == mark && (m.key == key || (m.deep && m.key.isPrefixOf key))

def Marks.clear (ms : Marks) (key : Key) : Marks := ms.filter fun m => !key.isPrefixOf m.key

abbrev Change := Settings → Option Settings

def changeLast (change : Change) : List Value → Option (List Value)
  | [] => none
  | [.map entries] => do return [.map (← change entries)]
  | [_] => none
  | x :: xs => do return x :: (← changeLast change xs)

/-- Changes the table under a key, which is made if there is none. Unless `intoArrays` is false an array
stands for its last table. -/
def changeAt (intoArrays : Bool) (change : Change) : Key → Change
  | [], entries => change entries
  | k :: ks, entries =>
    match entries.get? k with
    | none => do return entries.set k (.map (← changeAt intoArrays change ks []))
    | some (.map inner) => do return entries.set k (.map (← changeAt intoArrays change ks inner))
    | some (.list items) =>
      if intoArrays then do return entries.set k (.list (← changeLast (changeAt intoArrays change ks) items))
      else none
    | some _ => none

def setNew (name : String) (value : Value) : Change := fun entries =>
  if entries.has name then none else some (entries.set name value)

def appendTable (name : String) : Change := fun entries =>
  match entries.get? name with
  | none => some (entries.set name (.list [.map []]))
  | some (.list items) => some (entries.set name (.list (items ++ [.map []])))
  | some _ => none

def isKeyChar (c : Char) : Bool := c.isAlphanum || c == '-' || c == '_'

def keyPart (cs : List Char) : Except Error (String × List Char) :=
  match cs with
  | '"' :: rest => do
    let (body, after) ← basicText false [] rest
    return (String.ofList body, after)
  | '\'' :: rest => do
    let (body, after) ← literalText rest
    return (String.ofList body, after)
  | cs =>
    match cs.takeWhile isKeyChar with
    | [] => .error .invalid
    | name => .ok (String.ofList name, cs.dropWhile isKeyChar)

def key (cs : List Char) : Except Error (Key × List Char) := do
  let (part, after) ← keyPart cs
  match after.dropWhile isGap with
  | '.' :: rest =>
    let rest := rest.dropWhile isGap
    if rest.length < cs.length then
      let (parts, after) ← key rest
      return (part :: parts, after)
    else throw .invalid
  | after => return ([part], after)
termination_by cs.length

def comment (cs : List Char) : Except Error (List Char) :=
  match cs with
  | '#' :: rest =>
    if (rest.takeWhile (· != '\n')).any isControl then .error .invalid else .ok (rest.dropWhile (· != '\n'))
  | cs => .ok cs

def arrayGap (cs : List Char) : Except Error (List Char) := do
  let after ← comment (cs.dropWhile isGapOrLineEnd)
  if after.length < cs.length then arrayGap after else return after
termination_by cs.length

/-- An inline table that is open: what it holds, and what it will not have changed. -/
structure InlineTable where
  entries : Settings := []
  marks : Marks := []

def isContainer : Value → Bool
  | .list _ | .map _ => true
  | _ => false

def InlineTable.add (t : InlineTable) (k : Key) (value : Value) : Except Error InlineTable :=
  if t.marks.has k .fixed then .error .invalid
  else
    match changeAt false (setNew (k.getLast?.getD "") value) k.dropLast t.entries with
    | none => .error .invalid
    | some entries => .ok { t with entries }

def InlineTable.seal (t : InlineTable) (k : Key) (value : Value) : InlineTable :=
  if isContainer value then { t with marks := ⟨k, .fixed, true⟩ :: t.marks } else t

mutual

def value (cs : List Char) : Except Error (Value × List Char) := do
  match cs with
  | '"' :: _ | '\'' :: _ =>
    let (body, after) ← quotedText cs
    return (.text (String.ofList body), after)
  | '[' :: rest =>
    match ← arrayGap rest with
    | ']' :: after => return (.list [], after)
    | inner =>
      if inner.length ≤ rest.length then array [] inner else throw .invalid
  | '\x7b' :: rest =>
    match rest.dropWhile isGap with
    | '\x7d' :: after => return (.map [], after)
    | inner => if inner.length ≤ rest.length then inlineTable {} inner else throw .invalid
  | cs => scalar cs
termination_by (cs.length, 0)

def array (found : List Value) (cs : List Char) : Except Error (Value × List Char) := do
  let (item, after) ← value cs
  let found := found ++ [item]
  match ← arrayGap after with
  | ']' :: after => return (.list found, after)
  | ',' :: after =>
    match ← arrayGap after with
    | ']' :: after => return (.list found, after)
    | after => if after.length < cs.length then array found after else throw .invalid
  | _ => throw .invalid
termination_by (cs.length, 1)

def inlineTable (t : InlineTable) (cs : List Char) : Except Error (Value × List Char) := do
  let (k, after) ← key cs
  match after with
  | '=' :: rest =>
    let inner := rest.dropWhile isGap
    if inner.length < cs.length then
      let (item, after) ← value inner
      let t ← t.add k item
      match after.dropWhile isGap with
      | '\x7d' :: after => return (.map t.entries, after)
      | ',' :: after =>
        let next := after.dropWhile isGap
        if next.length < cs.length then inlineTable (t.seal k item) next else throw .invalid
      | _ => throw .invalid
    else throw .invalid
  | _ => throw .invalid
termination_by (cs.length, 1)

end

/-- What has been read: the tables, the marks, the marks that hold from the next header on, and the table
that is open. -/
structure Reader where
  entries : Settings := []
  marks : Marks := []
  pending : Marks := []
  header : Key := []

namespace Reader

def change (r : Reader) (k : Key) (c : Change) : Except Error Reader :=
  match changeAt true c k r.entries with
  | none => .error .invalid
  | some entries => .ok { r with entries }

def table (r : Reader) (cs : List Char) : Except Error (Reader × List Char) := do
  let (k, after) ← key (cs.dropWhile isGap)
  if r.marks.has k .named || r.marks.has k .fixed then throw .invalid
  let r ← { r with marks := ⟨k, .named, false⟩ :: r.marks }.change k some
  match after with
  | ']' :: rest => return ({ r with header := k }, rest)
  | _ => throw .invalid

def arrayTable (r : Reader) (cs : List Char) : Except Error (Reader × List Char) := do
  let (k, after) ← key (cs.dropWhile isGap)
  if r.marks.has k .fixed then throw .invalid
  let r := { r with marks := ⟨k, .named, false⟩ :: r.marks.clear k }
  let r ← r.change k.dropLast (appendTable (k.getLast?.getD ""))
  match after with
  | ']' :: ']' :: rest => return ({ r with header := k }, rest)
  | _ => throw .invalid

def between (header k : Key) : List Key :=
  ((List.range k.length).drop 1).map fun i => header ++ k.take i

def assignment (r : Reader) (cs : List Char) : Except Error (Reader × List Char) := do
  let (k, after) ← key cs
  match after with
  | '=' :: rest =>
    let (item, after) ← value (rest.dropWhile isGap)
    let path := between r.header k
    if path.any fun p => r.marks.has p .named then throw .invalid
    let pending := path.map (fun p => ⟨p, .named, false⟩) ++ r.pending
    let parent := r.header ++ k.dropLast
    if r.marks.has parent .fixed then throw .invalid
    let r ← { r with pending }.change parent (setNew (k.getLast?.getD "") item)
    let marks := if isContainer item then ⟨r.header ++ k, .fixed, true⟩ :: r.marks else r.marks
    return ({ r with marks }, after)
  | _ => throw .invalid

def statement (r : Reader) (cs : List Char) : Except Error (Reader × List Char) :=
  match cs with
  | '[' :: '[' :: rest => { r with marks := r.pending ++ r.marks, pending := [] }.arrayTable rest
  | '[' :: rest => { r with marks := r.pending ++ r.marks, pending := [] }.table rest
  | '#' :: _ => .ok (r, cs)
  | c :: _ => if isKeyChar c || c == '"' || c == '\'' then r.assignment cs else .error .invalid
  | [] => .ok (r, [])

def run (r : Reader) (cs : List Char) : Except Error Reader := do
  match cs.dropWhile isGap with
  | [] => return r
  | '\n' :: rest => if rest.length < cs.length then run r rest else throw .invalid
  | line =>
    let (r, after) ← r.statement line
    match ← comment (after.dropWhile isGap) with
    | [] => return r
    | '\n' :: rest => if rest.length < cs.length then run r rest else throw .invalid
    | _ => throw .invalid
termination_by cs.length

end Reader

def unifyLineEnds : List Char → List Char
  | '\r' :: '\n' :: rest => '\n' :: unifyLineEnds rest
  | c :: rest => c :: unifyLineEnds rest
  | [] => []

def read (text : List Char) : Except Error Settings :=
  Reader.entries <$> Reader.run {} (unifyLineEnds text)

end Stanza.Toml
