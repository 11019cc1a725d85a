import Stanza.File.Yaml.Label
import Stanza.File.Yaml.Text

/-!
# YAML tokens

The marks and texts of a YAML stream, with the indentation made explicit: a block collection starts and ends
with a token of its own. A text becomes the key of a mapping only when a colon follows it on the same line,
so the tokens that say so are put in front of it then.
-/

namespace Stanza.Yaml

inductive Token where
  | directive (d : Directive)
  | documentStart
  | documentEnd
  | streamEnd
  | blockSequence
  | blockMapping
  | blockEnd
  | flowSequence
  | flowSequenceEnd
  | flowMapping
  | flowMappingEnd
  | entry
  | comma
  | key
  | value
  | alias (name : String)
  | anchor (name : String)
  | tag (name : TagName)
  | scalar (text : List Char) (plain : Bool)
  /-- The text cannot be read from here on. -/
  | broken (e : Error)

/-- A place where a key could have started that is written without a question mark. -/
structure Candidate where
  /-- The number of tokens in front of it. -/
  place : Nat
  depth : Nat
  /-- Nothing but a key can stand there. -/
  required : Bool
  start : Cursor

/-- What has been read: the tokens, latest first; the number of flow collections that are open; the columns of
the block collections that are open, innermost first; whether a key can start here; and where keys could have
started, at most one place for each depth. -/
structure Layout where
  cursor : Cursor
  tokens : List Token := []
  depth : Nat := 0
  indents : List Nat := []
  keyAllowed : Bool := true
  candidates : List Candidate := []

namespace Layout

def push (l : Layout) (t : Token) : Layout := { l with tokens := t :: l.tokens }

def insert (l : Layout) (place : Nat) (t : Token) : Layout :=
  { l with tokens := l.tokens.insertIdx (l.tokens.length - place) t }

def goTo (l : Layout) (rest : List Char) : Layout := { l with cursor := l.cursor.goTo rest }

def inFlow (l : Layout) : Bool := l.depth != 0

def innerIndent (l : Layout) : Nat :=
  match l.indents with
  | [] => 0
  | column :: _ => column + 1

def closeBlocks (l : Layout) (inside : Nat → Bool) : Layout :=
  { l with
    tokens := (l.indents.takeWhile inside).map (fun _ => .blockEnd) ++ l.tokens
    indents := l.indents.dropWhile inside }

def isDeeper (l : Layout) (column : Nat) : Bool := l.innerIndent ≤ column

def dropCandidate (l : Layout) : Except Error Layout :=
  if l.candidates.any fun k => k.depth == l.depth && k.required then .error .invalid
  else .ok { l with candidates := l.candidates.filter (·.depth != l.depth) }

def addCandidate (l : Layout) : Except Error Layout :=
  if l.keyAllowed then do
    let required := !l.inFlow && l.indents.head? == some l.cursor.column
    let l' ← l.dropCandidate
    let k : Candidate := { place := l.tokens.length, depth := l.depth, required, start := l.cursor }
    return { l' with candidates := k :: l'.candidates }
  else .ok l

/-- A key ends on its line and has at most 1024 characters. -/
def isStale (p : Cursor) (k : Candidate) : Bool := k.start.line != p.line || p.index - k.start.index > 1024

def dropStale (l : Layout) : Except Error Layout :=
  if l.candidates.any fun k => isStale l.cursor k && k.required then .error .invalid
  else .ok { l with candidates := l.candidates.filter (!isStale l.cursor ·) }

def skipGap (cs : List Char) : List Char × Bool :=
  let after := cs.dropWhile (· == ' ')
  let after := if startsWith (· == '#') after then after.dropWhile (!isLineEnd ·) else after
  match after with
  | c :: rest =>
    if isLineEnd c && rest.length < cs.length then ((skipGap rest).1, true) else (after, false)
  | [] => ([], false)
termination_by cs.length
decreasing_by simp_all

def toToken (l : Layout) : Except Error Layout := do
  let text :=
    match l.cursor.index, l.cursor.rest with
    | 0, '\ufeff' :: rest => rest
    | _, cs => cs
  let (after, lineEnded) := skipGap text
  let l := l.goTo after
  let l ← { l with keyAllowed := l.keyAllowed || (lineEnded && !l.inFlow) }.dropStale
  return if l.inFlow then l else l.closeBlocks (l.cursor.column < ·)

def closeAll (l : Layout) : Except Error Layout := do
  let l := if l.inFlow then l else l.closeBlocks fun _ => true
  return { (← l.dropCandidate) with keyAllowed := false }

def mark (l : Layout) (t : Token) : Layout := (l.goTo (l.cursor.rest.drop 1)).push t

def openFlow (l : Layout) (t : Token) : Except Error Layout := do
  let l ← l.addCandidate
  return { l with depth := l.depth + 1, keyAllowed := true }.mark t

def closeFlow (l : Layout) (t : Token) : Except Error Layout := do
  if !l.inFlow then throw .invalid
  let l ← l.dropCandidate
  return { l with depth := l.depth - 1, keyAllowed := false }.mark t

def comma (l : Layout) : Except Error Layout := do
  let l ← { l with keyAllowed := true }.dropCandidate
  return l.mark .comma

/-- In block context the mark of an entry or a key opens a collection at its column if it has to. -/
def openBlock (l : Layout) (t : Token) : Except Error Layout :=
  if l.inFlow then .ok l
  else if !l.keyAllowed then .error .invalid
  else if l.isDeeper l.cursor.column then
    .ok { l.push t with indents := l.cursor.column :: l.indents }
  else .ok l

def entry (l : Layout) : Except Error Layout := do
  let l ← l.openBlock .blockSequence
  let l ← { l with keyAllowed := true }.dropCandidate
  return l.mark .entry

def key (l : Layout) : Except Error Layout := do
  let l ← l.openBlock .blockMapping
  let l ← { l with keyAllowed := !l.inFlow }.dropCandidate
  return l.mark .key

/-- A colon makes the candidate of its depth a key. -/
def value (l : Layout) : Except Error Layout := do
  match l.candidates.find? (·.depth == l.depth) with
  | some k =>
    let l := { l with candidates := l.candidates.filter (·.depth != l.depth), keyAllowed := false }
    let l := l.insert k.place .key
    let l :=
      if !l.inFlow && l.isDeeper k.start.column then
        { l.insert k.place .blockMapping with indents := k.start.column :: l.indents }
      else l
    return l.mark .value
  | none =>
    let l ← l.openBlock .blockMapping
    let l ← { l with keyAllowed := !l.inFlow }.dropCandidate
    return l.mark .value

def named (l : Layout) (read : List Char → Except Error (Token × List Char)) : Except Error Layout := do
  let l ← l.addCandidate
  let (t, after) ← read (l.cursor.rest.drop 1)
  return { l with keyAllowed := false }.goTo after |>.push t

def block (l : Layout) (folded : Bool) : Except Error Layout := do
  let l ← { l with keyAllowed := true }.dropCandidate
  let (text, after) ← blockText folded (max 1 l.innerIndent) (l.cursor.rest.drop 1)
  return (l.goTo after).push (.scalar text false)

def plain (l : Layout) : Except Error Layout := do
  let l ← l.addCandidate
  let t := plainText l.inFlow l.innerIndent ⟨[], none, l.cursor.rest⟩
  return { l with keyAllowed := t.lineEnded }.goTo t.rest |>.push (.scalar t.text true)

def documentMark (l : Layout) (t : Token) : Except Error Layout := do
  let l ← l.closeAll
  return (l.goTo (l.cursor.rest.drop 3)).push t

def directiveLine (l : Layout) : Except Error Layout := do
  let l ← l.closeAll
  let (d, after) ← directive (l.cursor.rest.drop 1)
  return (l.goTo after).push (.directive d)

def startsPlain (inFlow : Bool) (c : Char) (rest : List Char) : Bool :=
  !("-?:,[]\x7b\x7d#&*!|>'\"%@\x60".toList.contains c || isGap c || isLineEnd c)
    || (!atGap rest && (c == '-' || (!inFlow && (c == '?' || c == ':'))))

def token (l : Layout) (c : Char) (rest : List Char) : Except Error Layout :=
  let atStart := l.cursor.column == 0
  if c == '%' && atStart then l.directiveLine
  else if atStart && isTriple '-' (c :: rest) then l.documentMark .documentStart
  else if atStart && isTriple '.' (c :: rest) then l.documentMark .documentEnd
  else if c == '[' then l.openFlow .flowSequence
  else if c == '\x7b' then l.openFlow .flowMapping
  else if c == ']' then l.closeFlow .flowSequenceEnd
  else if c == '\x7d' then l.closeFlow .flowMappingEnd
  else if c == ',' then l.comma
  else if c == '-' && atGap rest then l.entry
  else if c == '?' && (l.inFlow || atGap rest) then l.key
  else if c == ':' && (l.inFlow || atGap rest) then l.value
  else if c == '*' then l.named fun cs => do
    let (name, after) ← anchorName cs
    return (.alias name, after)
  else if c == '&' then l.named fun cs => do
    let (name, after) ← anchorName cs
    return (.anchor name, after)
  else if c == '!' then l.named fun cs => do
    let (name, after) ← tagName cs
    return (.tag name, after)
  else if (c == '|' || c == '>') && !l.inFlow then l.block (c == '>')
  else if c == '\'' || c == '"' then l.named fun cs => do
    let (text, after) ← quotedText c [] cs
    return (.scalar text false, after)
  else if startsPlain l.inFlow c rest then l.plain
  else .error .invalid

def run (l : Layout) : Layout :=
  match l.toToken with
  | .error e => l.push (.broken e)
  | .ok next =>
    match next.cursor.rest with
    | [] =>
      match next.closeAll with
      | .error e => next.push (.broken e)
      | .ok last => last.push .streamEnd
    | c :: rest =>
      match next.token c rest with
      | .error e => next.push (.broken e)
      | .ok l' =>
        if l'.cursor.rest.length < l.cursor.rest.length then run l' else next.push (.broken .invalid)
termination_by l.cursor.rest.length

end Layout

def tokens (text : List Char) : List Token := (Layout.run { cursor := { rest := text } }).tokens.reverse

end Stanza.Yaml
