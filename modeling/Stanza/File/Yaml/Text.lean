import Stanza.File.Yaml.Cursor
import Stanza.Text.Integer

/-!
# YAML texts

The three ways to write a text: plain, in quotes, and as a block of lines. Within a plain or quoted text a
single line end stands for a blank, and one of several line ends is left out.
-/

namespace Stanza.Yaml

def foldLineEnds (first : Char) (more : List Char) : List Char :=
  if first ≠ '\n' then first :: more else if more.isEmpty then [' '] else more

/-- A part of a plain text without gaps. In a flow collection it ends before the marks of the collection. -/
def plainWord (inFlow : Bool) : List Char → List Char × List Char
  | [] => ([], [])
  | c :: rest =>
    let ends := isGap c || isLineEnd c
      || (c == ':' && (atGap rest || (inFlow && startsWith isFlowMark rest)))
      || (inFlow && (c == '?' || isFlowMark c))
    if ends then ([], c :: rest)
    else
      let (word, after) := plainWord inFlow rest
      (c :: word, after)

/-- From the start of a line on, the line ends before the next word and its column. There is no next word
before a line that ends the document. -/
def nextWord (column : Nat) : List Char → Option (List Char × Nat) × List Char
  | [] => (some ([], column), [])
  | c :: rest =>
    if column = 0 && isSeparator (c :: rest) then (none, c :: rest)
    else if c == ' ' then nextWord (column + 1) rest
    else if isLineEnd c then
      let (found, after) := nextWord 0 rest
      (found.map fun (ends, n) => (lineEnd c :: ends, n), after)
    else (some ([], column), c :: rest)

structure WordGap where
  /-- What it stands for. -/
  text : List Char
  /-- The column of the next word if it is on a later line. -/
  column : Option Nat
  rest : List Char

def wordGap (cs : List Char) : WordGap :=
  let spaces := cs.takeWhile (· == ' ')
  match cs.dropWhile (· == ' ') with
  | [] => { text := spaces, column := none, rest := [] }
  | c :: rest =>
    if isLineEnd c then
      match nextWord 0 rest with
      | (some (more, n), after) => { text := foldLineEnds (lineEnd c) more, column := some n, rest := after }
      | (none, after) => { text := [], column := some 0, rest := after }
    else { text := spaces, column := none, rest := c :: rest }

structure PlainText where
  text : List Char
  /-- Whether a line ended after the last word. -/
  lineEnded : Bool
  rest : List Char

def plainText (inFlow : Bool) (indent : Nat) (gap : WordGap) : PlainText :=
  match plainWord inFlow gap.rest with
  | ([], _) => ⟨[], gap.column.isSome, gap.rest⟩
  | (word, after) =>
    let next := wordGap after
    let ends := next.text.isEmpty || startsWith (· == '#') next.rest
      || (!inFlow && next.column.any (· < indent))
    if ends then ⟨gap.text ++ word, next.column.isSome, next.rest⟩
    else if next.rest.length < gap.rest.length then
      let more := plainText inFlow indent next
      { more with text := gap.text ++ word ++ more.text }
    else ⟨gap.text ++ word, next.column.isSome, next.rest⟩
termination_by gap.rest.length

def quotedLineEnds (atStart : Bool) : List Char → Except Error (List Char × List Char)
  | [] => .ok ([], [])
  | c :: rest =>
    if atStart && isSeparator (c :: rest) then .error .invalid
    else if isGap c then quotedLineEnds false rest
    else if isLineEnd c then do
      let (ends, after) ← quotedLineEnds true rest
      return (lineEnd c :: ends, after)
    else .ok ([], c :: rest)

def quotedGap (cs : List Char) : Except Error (List Char × List Char) :=
  match cs.dropWhile isGap with
  | [] => .error .invalid
  | c :: rest =>
    if isLineEnd c then do
      let (more, after) ← quotedLineEnds true rest
      return (foldLineEnds (lineEnd c) more, after)
    else .ok (cs.takeWhile isGap, c :: rest)

/-- The character with a number. Half of a surrogate pair is no character: a text with one could be read, but not be
written out, and is refused here when it is read. -/
def numberedChar (n : Nat) : Except Error Char :=
  if n > 0x7fffffff then .error (.fault (.outOfRange .huge))
  else if n > 0x10ffff then .error (.fault (.rejected .characterRange))
  else if 0xd800 ≤ n ∧ n ≤ 0xdfff then .error (.fault .unencodable)
  else .ok (Char.ofNat n)

def hexEscape (count : Nat) (cs : List Char) : Except Error (List Char × List Char) := do
  let digits := cs.take count
  if digits.length < count || !digits.all isHexDigit then throw .invalid
  let c ← numberedChar (Text.natOfDigits 16 (digits.map digitOf))
  return ([c], cs.drop count)

def escapes : List (Char × Char) :=
  [('0', '\x00'), ('a', '\x07'), ('b', '\x08'), ('t', '\t'), ('\t', '\t'), ('n', '\n'), ('v', '\x0b'),
    ('f', '\x0c'), ('r', '\r'), ('e', '\x1b'), (' ', ' '), ('"', '"'), ('\\', '\\'), ('/', '/'),
    ('N', '\x85'), ('_', '\xa0'), ('L', '\u2028'), ('P', '\u2029')]

def escape : List Char → Except Error (List Char × List Char)
  | [] => .error .invalid
  | c :: rest =>
    match escapes.lookup c with
    | some d => .ok ([d], rest)
    | none =>
      if c == 'x' then hexEscape 2 rest
      else if c == 'u' then hexEscape 4 rest
      else if c == 'U' then hexEscape 8 rest
      else if isLineEnd c then quotedLineEnds true rest
      else .error .invalid

/-- A text in quotes after its opening. In single quotes a quote is written twice, in double quotes there
are escapes. -/
def quotedText (quote : Char) (found : List Char) (cs : List Char) : Except Error (List Char × List Char) :=
  match cs with
  | [] => .error .invalid
  | c :: rest =>
    let goOn (part : Except Error (List Char × List Char)) : Except Error (List Char × List Char) := do
      let (text, after) ← part
      if after.length ≤ rest.length then quotedText quote (found ++ text) after else throw .invalid
    if c == quote then
      if quote == '\'' && startsWith (· == '\'') rest then goOn (.ok (['\''], rest.drop 1))
      else .ok (found, rest)
    else if c == '\\' && quote == '"' then goOn (escape rest)
    else if isGap c || isLineEnd c then goOn (quotedGap (c :: rest))
    else goOn (.ok ([c], rest))
termination_by cs.length

/-- What stands after the mark of a block: whether the line ends after it are kept (all of them or not even
the last one), and its indentation. -/
structure BlockMark where
  keep : Option Bool := none
  step : Option Nat := none

def BlockMark.readKeep (m : BlockMark) : List Char → BlockMark × List Char
  | '+' :: rest => ({ m with keep := some true }, rest)
  | '-' :: rest => ({ m with keep := some false }, rest)
  | cs => (m, cs)

def BlockMark.readStep (m : BlockMark) : List Char → Except Error (BlockMark × List Char)
  | c :: rest =>
    if c == '0' then .error .invalid
    else if c.isDigit then .ok ({ m with step := some (digitOf c) }, rest)
    else .ok (m, c :: rest)
  | [] => .ok (m, [])

def blockMark (cs : List Char) : Except Error (BlockMark × List Char) := do
  let (m, after) := BlockMark.readKeep {} cs
  let (m, after) ← m.readStep after
  let (m, after) := if m.keep.isSome then (m, after) else m.readKeep after
  if !atSpace after then throw .invalid
  return (m, ← restOfLine after)

/-- Blank lines and blanks at the start of a block: the line ends, the column reached, and the widest one. -/
def blockIndent (column widest : Nat) : List Char → (List Char × Nat × Nat) × List Char
  | [] => (([], column, widest), [])
  | c :: rest =>
    if c == ' ' then blockIndent (column + 1) (max widest (column + 1)) rest
    else if isLineEnd c then
      let ((ends, column, widest), after) := blockIndent 0 widest rest
      ((lineEnd c :: ends, column, widest), after)
    else (([], column, widest), c :: rest)

/-- The line ends before the next line of a block, from the start of a line on, and the column reached. At
most `indent` blanks are taken from each line. -/
def blockLineEnds (indent column : Nat) : List Char → (List Char × Nat) × List Char
  | [] => (([], column), [])
  | c :: rest =>
    if c == ' ' && column < indent then blockLineEnds indent (column + 1) rest
    else if isLineEnd c then
      let ((ends, column), after) := blockLineEnds indent 0 rest
      ((lineEnd c :: ends, column), after)
    else (([], column), c :: rest)

structure BlockLines where
  text : List Char := []
  last : List Char := []
  ends : List Char := []
  rest : List Char

/-- The line end between two lines of a block. When lines are folded and neither is indented further, it is a
blank, or nothing if there are `ends` after it. -/
def joinLines (folded : Bool) (first : Char) (ends : List Char) (line next : List Char) : List Char :=
  if folded && first == '\n' && !startsWith isGap line && !startsWith isGap next then
    if ends.isEmpty then [' '] else []
  else [first]

def blockLines (folded : Bool) (indent : Nat) (ends : List Char) (cs : List Char) : BlockLines :=
  let line := cs.takeWhile (!isLineEnd ·)
  match cs.dropWhile (!isLineEnd ·) with
  | [] => { text := ends ++ line, rest := [] }
  | c :: after =>
    let ((more, column), next) := blockLineEnds indent 0 after
    if column = indent ∧ !next.isEmpty ∧ next.length < cs.length then
      let joined := joinLines folded (lineEnd c) more line next
      let later := blockLines folded indent more next
      { later with text := ends ++ line ++ joined ++ later.text }
    else { text := ends ++ line, last := [lineEnd c], ends := more, rest := next }
termination_by cs.length
decreasing_by omega

def blockText (folded : Bool) (least : Nat) (cs : List Char) : Except Error (List Char × List Char) := do
  let (mark, body) ← blockMark cs
  let ((ends, column), indent, start) : (List Char × Nat) × Nat × List Char :=
    match mark.step with
    | some n =>
      let indent := least + n - 1
      let (found, start) := blockLineEnds indent 0 body
      (found, indent, start)
    | none =>
      let ((ends, column, widest), start) := blockIndent 0 0 body
      ((ends, column), max least widest, start)
  let lines : BlockLines :=
    if column = indent && !start.isEmpty then blockLines folded indent ends start
    else { ends, rest := start }
  let text := lines.text ++ (if mark.keep = some false then [] else lines.last)
    ++ (if mark.keep = some true then lines.ends else [])
  return (text, lines.rest)

end Stanza.Yaml
