import Stanza.File.Yaml.Tag
import Stanza.File.Yaml.Token

/-!
# YAML nodes

The tree of a document. An alias stands for the node with its anchor, which has to be complete before it.
-/

namespace Stanza.Yaml

inductive Node where
  | scalar (tag : Tag) (text : String)
  | sequence (tag : Tag) (items : List Node)
  | mapping (tag : Tag) (entries : List (Node × Node))

namespace Node

def empty : Node := .scalar .null ""

abbrev Anchors := List (String × Node)

abbrev Handles := List (String × String)

def defaultHandles : Handles := [("!", "!"), ("!!", standardTag)]

structure Reading where
  tokens : List Token
  anchors : Anchors := []

def unexpected : List Token → Error
  | .broken e :: _ => e
  | _ => .invalid

def properties : List Token → Option String × Option TagName × List Token
  | .anchor a :: .tag t :: rest => (some a, some t, rest)
  | .tag t :: .anchor a :: rest => (some a, some t, rest)
  | .anchor a :: rest => (some a, none, rest)
  | .tag t :: rest => (none, some t, rest)
  | rest => (none, none, rest)

theorem properties_length (ts : List Token) : (properties ts).2.2.length ≤ ts.length := by
  unfold properties
  split <;> simp <;> omega

def tagText (handles : Handles) (t : TagName) : Except Error String :=
  match t.handle with
  | none => .ok t.suffix
  | some h =>
    match handles.lookup h with
    | some value => .ok (value ++ t.suffix)
    | none => .error .invalid

def tagOf (handles : Handles) : Option TagName → Except Error (Option Tag)
  | none => .ok none
  | some t => do
    let text ← tagText handles t
    return if text == "!" then none else some (.ofName text)

/-- A plain text without a tag has the type of its form, and so has a text with the tag `!`. -/
def ofScalar (written : Option TagName) (tag : Option Tag) (text : String) (plain : Bool) : Node :=
  match tag with
  | some t => .scalar t text
  | none => .scalar (if plain || written.isSome then Tag.ofPlain text else .text) text

/-- An anchor is used once, and stands for a node that is complete: within its own node it is not known. -/
def bind (name : Option String) (node : Node) (r : Reading) : Except Error (Node × Reading) :=
  match name with
  | none => .ok (node, r)
  | some a =>
    if (r.anchors.lookup a).isSome then .error .invalid
    else .ok (node, { r with anchors := (a, node) :: r.anchors })

/-- The form of a sequence: its end is marked in a flow and in a block, and is found when a sequence is not
indented further than the key it belongs to. -/
inductive SequenceForm where
  | block
  | indentless

def endsEntry (form : SequenceForm) : List Token → Bool
  | .entry :: _ | .blockEnd :: _ => true
  | .key :: _ | .value :: _ => match form with
    | .block => false
    | .indentless => true
  | _ => false

def endsBlockPart : List Token → Bool
  | .key :: _ | .value :: _ | .blockEnd :: _ => true
  | _ => false

def endsFlowKey : List Token → Bool
  | .value :: _ | .comma :: _ | .flowSequenceEnd :: _ | .flowMappingEnd :: _ => true
  | _ => false

def endsFlowValue : List Token → Bool
  | .comma :: _ | .flowSequenceEnd :: _ | .flowMappingEnd :: _ => true
  | _ => false

def afterComma (first : Bool) (r : Reading) : Except Error Reading :=
  if first then .ok r
  else
    match r.tokens with
    | .comma :: rest => .ok { r with tokens := rest }
    | ts => .error (unexpected ts)

variable (handles : Handles)

mutual

/-- A node. Block collections stand only in a block, and sequences without indentation only in a mapping. -/
def read (block indentless : Bool) (r : Reading) : Except Error (Node × Reading) := do
  match ht : r.tokens with
  | .alias name :: rest =>
    match r.anchors.lookup name with
    | some node => return (node, { r with tokens := rest })
    | none => throw .invalid
  | ts =>
    let anchor := (properties ts).1
    let written := (properties ts).2.1
    let tag ← tagOf handles written
    have _hl : (properties ts).2.2.length ≤ r.tokens.length := ht ▸ properties_length ts
    match _h : (properties ts).2.2, block, indentless with
    | .entry :: rest, _, true =>
      let (items, r) ← blockItems .indentless { r with tokens := .entry :: rest }
      bind anchor (.sequence (tag.getD .sequence) items) r
    | .scalar text plain :: rest, _, _ =>
      bind anchor (ofScalar written tag (String.ofList text) plain) { r with tokens := rest }
    | .flowSequence :: rest, _, _ =>
      let (items, r) ← flowItems true { r with tokens := rest }
      bind anchor (.sequence (tag.getD .sequence) items) r
    | .flowMapping :: rest, _, _ =>
      let (entries, r) ← flowEntries true { r with tokens := rest }
      bind anchor (.mapping (tag.getD .mapping) entries) r
    | .blockSequence :: rest, true, _ =>
      let (items, r) ← blockItems .block { r with tokens := rest }
      bind anchor (.sequence (tag.getD .sequence) items) r
    | .blockMapping :: rest, true, _ =>
      let (entries, r) ← blockEntries { r with tokens := rest }
      bind anchor (.mapping (tag.getD .mapping) entries) r
    | rest, _, _ =>
      if anchor.isSome || written.isSome then
        bind anchor (ofScalar written tag "" true) { r with tokens := rest }
      else throw (unexpected rest)
termination_by 4 * r.tokens.length + 1
decreasing_by all_goals grind [List.length_cons]

/-- A node, or nothing where the next mark is already that of another part. -/
def part (isMissing block indentless : Bool) (r : Reading) : Except Error (Node × Reading) :=
  if isMissing then .ok (empty, r) else read block indentless r
termination_by 4 * r.tokens.length + 2

def entry (endsKey endsValue : List Token → Bool) (block : Bool) (r : Reading) :
    Except Error ((Node × Node) × Reading) := do
  let (k, next) ← part (endsKey r.tokens) block block r
  if next.tokens.length ≤ r.tokens.length then
    match _hn : next.tokens with
    | .value :: rest =>
      let (v, next) ← part (endsValue rest) block block { next with tokens := rest }
      return ((k, v), next)
    | _ => return ((k, empty), next)
  else throw .invalid
termination_by 4 * r.tokens.length + 3
decreasing_by all_goals grind [List.length_cons]

def blockItems (form : SequenceForm) (r : Reading) : Except Error (List Node × Reading) := do
  match _hr : r.tokens with
  | .entry :: rest =>
    let (item, next) ← part (endsEntry form rest) true false { r with tokens := rest }
    if next.tokens.length < r.tokens.length then
      let (items, next) ← blockItems form next
      return (item :: items, next)
    else throw .invalid
  | ts =>
    match form, ts with
    | .indentless, _ => return ([], r)
    | .block, .blockEnd :: rest => return ([], { r with tokens := rest })
    | .block, ts => throw (unexpected ts)
termination_by 4 * r.tokens.length
decreasing_by all_goals grind [List.length_cons]

def blockEntries (r : Reading) : Except Error (List (Node × Node) × Reading) := do
  match _hr : r.tokens with
  | .key :: rest =>
    let (found, next) ← entry endsBlockPart endsBlockPart true { r with tokens := rest }
    if next.tokens.length < r.tokens.length then
      let (entries, next) ← blockEntries next
      return (found :: entries, next)
    else throw .invalid
  | .blockEnd :: rest => return ([], { r with tokens := rest })
  | ts => throw (unexpected ts)
termination_by 4 * r.tokens.length
decreasing_by all_goals grind [List.length_cons]

/-- The items of a sequence in a flow. An entry among them is a mapping of its own. -/
def flowItems (first : Bool) (r : Reading) : Except Error (List Node × Reading) := do
  match r.tokens with
  | .flowSequenceEnd :: rest => return ([], { r with tokens := rest })
  | _ =>
    let start ← afterComma first r
    if start.tokens.length ≤ r.tokens.length then
      match start.tokens with
      | .flowSequenceEnd :: rest => return ([], { start with tokens := rest })
      | .key :: rest =>
        if rest.length < r.tokens.length then
          let (found, next) ← entry endsFlowKey endsFlowValue false { start with tokens := rest }
          if next.tokens.length < r.tokens.length then
            let (items, next) ← flowItems false next
            return ((.mapping .mapping [found]) :: items, next)
          else throw .invalid
        else throw .invalid
      | _ =>
        let (item, next) ← read false false start
        if next.tokens.length < r.tokens.length then
          let (items, next) ← flowItems false next
          return (item :: items, next)
        else throw .invalid
    else throw .invalid
termination_by 4 * r.tokens.length + 3

def flowEntries (first : Bool) (r : Reading) : Except Error (List (Node × Node) × Reading) := do
  match r.tokens with
  | .flowMappingEnd :: rest => return ([], { r with tokens := rest })
  | _ =>
    let start ← afterComma first r
    if start.tokens.length ≤ r.tokens.length then
      match start.tokens with
      | .flowMappingEnd :: rest => return ([], { start with tokens := rest })
      | .key :: rest =>
        if rest.length < r.tokens.length then
          let (found, next) ← entry endsFlowKey endsFlowValue false { start with tokens := rest }
          if next.tokens.length < r.tokens.length then
            let (entries, next) ← flowEntries false next
            return (found :: entries, next)
          else throw .invalid
        else throw .invalid
      | _ =>
        let (k, next) ← read false false start
        if next.tokens.length < r.tokens.length then
          let (entries, next) ← flowEntries false next
          return ((k, empty) :: entries, next)
        else throw .invalid
    else throw .invalid
termination_by 4 * r.tokens.length + 3

end

end Node

end Stanza.Yaml
