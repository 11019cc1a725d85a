import Stanza.Error.Fault
import Stanza.Text.Blank

/-!
# Places in YAML text

Classes of characters, and a place in a text with its line and column. Line ends are line feeds, next-line
characters, and the line and paragraph separators; the last two stay themselves in a value, the others
become line feeds.
-/

namespace Stanza.Yaml

inductive Error where
  | invalid
  /-- The text is well formed, but holds a scalar that is no value of its type. -/
  | fault (f : Fault)

def isPrintable (c : Char) : Bool :=
  c == '\t' || c == '\n' || (' ' ≤ c && c ≤ '~') || c == '\x85'
    || ('\xa0' ≤ c && c ≠ '\ufffe' && c ≠ '\uffff')

def isLineEnd (c : Char) : Bool := c == '\n' || c == '\x85' || c == '\u2028' || c == '\u2029'

def lineEnd (c : Char) : Char := if c == '\x85' then '\n' else c

def isGap (c : Char) : Bool := c == ' ' || c == '\t'

def atGap : List Char → Bool
  | [] => true
  | c :: _ => isGap c || isLineEnd c

def atSpace : List Char → Bool
  | [] => true
  | c :: _ => c == ' ' || isLineEnd c

def atLineEnd : List Char → Bool
  | [] => true
  | c :: _ => isLineEnd c

def startsWith (p : Char → Bool) : List Char → Bool
  | [] => false
  | c :: _ => p c

def isTriple (mark : Char) : List Char → Bool
  | a :: b :: c :: rest => a == mark && b == mark && c == mark && atGap rest
  | _ => false

def isSeparator (cs : List Char) : Bool := isTriple '-' cs || isTriple '.' cs

def isFlowMark (c : Char) : Bool := c == ',' || c == '[' || c == ']' || c == '\x7b' || c == '\x7d'

def isNameChar (c : Char) : Bool := c.isAlphanum || c == '-' || c == '_'

def isHexDigit (c : Char) : Bool := c.isDigit || ('a' ≤ c && c ≤ 'f') || ('A' ≤ c && c ≤ 'F')

def digitOf (c : Char) : Nat :=
  if c.isDigit then c.toNat - '0'.toNat else c.toLower.toNat - 'a'.toNat + 10

def restOfLine (cs : List Char) : Except Error (List Char) :=
  let after := cs.dropWhile (· == ' ')
  let after := if startsWith (· == '#') after then after.dropWhile (!isLineEnd ·) else after
  if atLineEnd after then .ok (after.drop 1) else .error .invalid

structure Cursor where
  rest : List Char
  index : Nat := 0
  line : Nat := 0
  column : Nat := 0

namespace Cursor

/-- Byte order marks take no column. -/
def step (p : Cursor) : Cursor :=
  match p.rest with
  | [] => p
  | c :: rest =>
    if isLineEnd c then { rest, index := p.index + 1, line := p.line + 1, column := 0 }
    else { p with rest, index := p.index + 1, column := if c = '\ufeff' then p.column else p.column + 1 }

def skip (p : Cursor) : Nat → Cursor
  | 0 => p
  | n + 1 => p.step.skip n

def goTo (p : Cursor) (rest : List Char) : Cursor := p.skip (p.rest.length - rest.length)

end Cursor

end Stanza.Yaml
