import Stanza.Pattern.Syntax
import Stanza.Text.Blank
import Stanza.Text.Case
import Stanza.Text.Word

/-!
# Matching

A node is matched at a place in a text and hands every place where it can end to what follows, in order of
preference, until that succeeds.
-/

namespace Stanza.Pattern

/-- A place in a text: what is before it, latest first, and after it, and what the groups have matched. -/
structure Place where
  before : List Char
  after : List Char
  captures : List (Nat × List Char) := []

structure Mode where
  ignoreCase : Bool
  multiline : Bool
  dotAll : Bool
  ascii : Bool

def Mode.of (flags : Flags) : Mode where
  ignoreCase := flags.contains .ignoreCase
  multiline := flags.contains .multiline
  dotAll := flags.contains .dotAll
  ascii := flags.contains .ascii

def Mode.within (m : Mode) (on off : Flags) : Mode where
  ignoreCase := (m.ignoreCase || on.contains .ignoreCase) && !off.contains .ignoreCase
  multiline := (m.multiline || on.contains .multiline) && !off.contains .multiline
  dotAll := (m.dotAll || on.contains .dotAll) && !off.contains .dotAll
  ascii := on.contains .ascii || (m.ascii && !on.contains .unicode)

namespace Mode

def isWord (m : Mode) (c : Char) : Bool :=
  if m.ascii then c.isAlphanum || c == '_' else Text.isWordChar c

def isDigit (m : Mode) (c : Char) : Bool := if m.ascii then c.isDigit else (Text.digitValue? c).isSome

def isBlank (m : Mode) (c : Char) : Bool :=
  if m.ascii then c == ' ' || ('\t' ≤ c && c ≤ '\r') else Text.isBlank c

def inCategory (m : Mode) : Category → Char → Bool
  | .digit => m.isDigit
  | .blank => m.isBlank
  | .word => m.isWord

def lowerCode (m : Mode) (n : Nat) : Nat :=
  if m.ascii then (if 0x41 ≤ n && n ≤ 0x5a then n + 0x20 else n) else Text.simpleLowerCode n

def family (m : Mode) (n : Nat) : List Nat := if m.ascii then [n] else Text.caseFamily n

def sources (m : Mode) (n : Nat) : List Nat :=
  if m.ascii then (if 0x61 ≤ n && n ≤ 0x7a then [n, n - 0x20] else [n]) else Text.simpleLowerSources n

def sameChar (m : Mode) (code : Nat) (c : Char) : Bool :=
  if m.ignoreCase then (m.family (m.lowerCode code)).contains (m.lowerCode c.toNat) else code == c.toNat

def inRange (m : Mode) (first last : Nat) (c : Char) : Bool :=
  let within (n : Nat) : Bool := first ≤ n && n ≤ last
  if m.ignoreCase then ((m.family (m.lowerCode c.toNat)).flatMap m.sources).any within else within c.toNat

def isMember (m : Mode) (c : Char) : Member → Bool
  | .char code => m.sameChar code c
  | .range first last => m.inRange first last c
  | .category category negated => m.inCategory category c != negated

def afterCapture (m : Mode) : List Char → List Char → Option (List Char)
  | [], text => some text
  | a :: as, b :: bs =>
    let same := if m.ignoreCase then m.lowerCode a.toNat == m.lowerCode b.toNat else a == b
    if same then m.afterCapture as bs else none
  | _ :: _, [] => none

end Mode

namespace Place

def next? (p : Place) (ok : Char → Bool) : Option Place :=
  match p.after with
  | c :: rest => if ok c then some { p with before := c :: p.before, after := rest } else none
  | [] => none

def forward (p : Place) (n : Nat) : Place :=
  { p with before := (p.after.take n).reverse ++ p.before, after := p.after.drop n }

def back? (p : Place) (n : Nat) : Option Place :=
  if p.before.length < n then none
  else some { p with before := p.before.drop n, after := (p.before.take n).reverse ++ p.after }

def isAtEdge (p : Place) (m : Mode) : Bool :=
  p.before.head?.any m.isWord != p.after.head?.any m.isWord

def isEmpty (p : Place) : Bool := p.before.isEmpty && p.after.isEmpty

def satisfies (p : Place) (m : Mode) : Anchor → Bool
  | .textStart => p.before.isEmpty
  | .lineStart => p.before.isEmpty || (m.multiline && p.before.head? == some '\n')
  | .lineEnd => p.after.isEmpty || p.after == ['\n'] || (m.multiline && p.after.head? == some '\n')
  | .textEnd => p.after.isEmpty
  | .wordEdge => !p.isEmpty && p.isAtEdge m
  | .noWordEdge => !p.isEmpty && !p.isAtEdge m

def capture (p : Place) (number : Nat) (text : List Char) : Place :=
  { p with captures := (number, text) :: p.captures }

def since (p start : Place) : List Char := start.after.take (start.after.length - p.after.length)

end Place

abbrev Rest := Place → Option Place

def belowMax (count : Nat) (max : Option Nat) : Bool := max.all (count < ·)

/-- As often as possible. Beyond the least number of times, a repetition that begins where the one before it
began is not tried. -/
def runGreedy (body : Place → Rest → Option Place) (min : Nat) (max : Option Nat) :
    Nat → Nat → Option Nat → Place → Rest → Option Place
  | 0, _, _, p, k => k p
  | fuel + 1, count, last, p, k =>
    if count < min then body p fun q => runGreedy body min max fuel (count + 1) last q k
    else if belowMax count max && last != some p.after.length then
      (body p fun q => runGreedy body min max fuel (count + 1) (some p.after.length) q k) <|> k p
    else k p

def runLazy (body : Place → Rest → Option Place) (min : Nat) (max : Option Nat) :
    Nat → Nat → Option Nat → Place → Rest → Option Place
  | 0, _, _, p, k => k p
  | fuel + 1, count, last, p, k =>
    if count < min then body p fun q => runLazy body min max fuel (count + 1) last q k
    else
      k p <|>
        if belowMax count max && last != some p.after.length then
          body p fun q => runLazy body min max fuel (count + 1) (some p.after.length) q k
        else none

def runPossessive (body : Place → Rest → Option Place) (min : Nat) (max : Option Nat) :
    Nat → Nat → Option Nat → Place → Option Place
  | 0, _, _, p => some p
  | fuel + 1, count, last, p =>
    if count < min then (body p some).bind (runPossessive body min max fuel (count + 1) last)
    else if belowMax count max && last != some p.after.length then
      match body p some with
      | some q => runPossessive body min max fuel (count + 1) (some p.after.length) q
      | none => some p
    else some p

/-- More repetitions than a text can have. -/
def enough (min : Nat) (p : Place) : Nat := min + p.after.length + 2

mutual

def Node.run (groups : Nat → Width) (m : Mode) : Node → Place → Rest → Option Place
  | .anchor a, p, k => if p.satisfies m a then k p else none
  | .any, p, k => (p.next? fun c => m.dotAll || c != '\n').bind k
  | .char code, p, k => (p.next? (m.sameChar code)).bind k
  | .set negated members, p, k => (p.next? fun c => members.any (m.isMember c) != negated).bind k
  | .reference g, p, k =>
    match p.captures.lookup g with
    | none => none
    | some text => if (m.afterCapture text p.after).isSome then k (p.forward text.length) else none
  | .group number on off body, p, k =>
    runAll groups (m.within on off) body p fun q =>
      match number with
      | some n => k (q.capture n (q.since p))
      | none => k q
  | .atomic body, p, k => (runAll groups m body p some).bind k
  | .look behind negated body, p, k =>
    let found :=
      if behind then (p.back? (width groups body).lo).bind fun start => runAll groups m body start some
      else runAll groups m body p some
    match found with
    | some q => if negated then none else k { p with captures := q.captures }
    | none => if negated then k p else none
  | .condition g yes no, p, k =>
    if (p.captures.lookup g).isSome then runAll groups m yes p k else runAll groups m no p k
  | .branch alternatives, p, k => runAny groups m alternatives p k
  | .repeat greed min max body, p, k =>
    let one := fun q k => runAll groups m body q k
    match greed with
    | .greedy => runGreedy one min max (enough min p) 0 none p k
    | .lazy => runLazy one min max (enough min p) 0 none p k
    | .possessive => (runPossessive one min max (enough min p) 0 none p).bind k
termination_by structural n => n

def runAll (groups : Nat → Width) (m : Mode) : List Node → Place → Rest → Option Place
  | [], p, k => k p
  | n :: rest, p, k => n.run groups m p fun q => runAll groups m rest q k
termination_by structural ns => ns

def runAny (groups : Nat → Width) (m : Mode) : List (List Node) → Place → Rest → Option Place
  | [], _, _ => none
  | a :: rest, p, k => runAll groups m a p k <|> runAny groups m rest p k
termination_by structural as => as

end

end Stanza.Pattern
