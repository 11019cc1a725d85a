/-!
# Patterns

A pattern is a sequence of nodes. Characters are code points, since a pattern may name one that no text
contains.
-/

namespace Stanza.Pattern

inductive Flag where
  | ignoreCase
  | multiline
  | dotAll
  | verbose
  | ascii
  | unicode
  | locale
  | template
  deriving DecidableEq

namespace Flag

def ofChar? : Char → Option Flag
  | 'i' => some .ignoreCase
  | 'L' => some .locale
  | 'm' => some .multiline
  | 's' => some .dotAll
  | 'x' => some .verbose
  | 'a' => some .ascii
  | 't' => some .template
  | 'u' => some .unicode
  | _ => none

def isCharset : Flag → Bool
  | .ascii | .unicode | .locale => true
  | _ => false

end Flag

abbrev Flags := List Flag

def Flags.within (flags on off : Flags) : Flags :=
  let kept := if on.any Flag.isCharset then flags.filter (!·.isCharset) else flags
  (kept ++ on).filter (!off.contains ·)

inductive Category where
  | digit
  | blank
  | word
  deriving DecidableEq

inductive Member where
  | char (code : Nat)
  | range (first last : Nat)
  | category (c : Category) (negated : Bool)

inductive Anchor where
  | textStart
  | lineStart
  | lineEnd
  | textEnd
  | wordEdge
  | noWordEdge
  deriving DecidableEq

inductive Greed where
  | greedy
  | lazy
  | possessive
  deriving DecidableEq

def Greed.operator : Greed → String
  | .greedy => "MAX_REPEAT"
  | .lazy => "MIN_REPEAT"
  | .possessive => "POSSESSIVE_REPEAT"

inductive Node where
  | anchor (a : Anchor)
  | any
  | char (code : Nat)
  | set (negated : Bool) (members : List Member)
  | reference (group : Nat)
  | group (number : Option Nat) (on off : Flags) (body : List Node)
  | atomic (body : List Node)
  | look (behind negated : Bool) (body : List Node)
  | condition (group : Nat) (yes no : List Node)
  | branch (alternatives : List (List Node))
  /-- At least `min` and at most `max` times. -/
  | repeat (greed : Greed) (min : Nat) (max : Option Nat) (body : List Node)

structure Width where
  lo : Nat
  hi : Nat

/-- Widths are not told apart from here on. -/
def Width.limit : Nat := 0x10000000000000000

def Width.add (a b : Width) : Width := ⟨a.lo + b.lo, a.hi + b.hi⟩

def Width.clamp (w : Width) : Width := ⟨min w.lo limit, min w.hi limit⟩

def Width.join (a b : Width) : Width := ⟨min a.lo b.lo, max a.hi b.hi⟩

def Width.repeat (w : Width) (min : Nat) (max : Option Nat) : Width :=
  ⟨w.lo * min, match max with
    | some n => w.hi * n
    | none => if w.hi == 0 then 0 else limit⟩

mutual

def Node.width (groups : Nat → Width) : Node → Width
  | .anchor _ | .look .. => ⟨0, 0⟩
  | .any | .char _ | .set .. => ⟨1, 1⟩
  | .reference g => groups g
  | .group _ _ _ body | .atomic body => width groups body
  | .condition _ yes no =>
    if no.isEmpty then { width groups yes with lo := 0 } else (width groups yes).join (width groups no)
  | .branch alternatives => widthOfAny groups alternatives
  | .repeat _ min max body => (width groups body).repeat min max
termination_by structural n => n

def width (groups : Nat → Width) : List Node → Width
  | [] => ⟨0, 0⟩
  | n :: rest => ((n.width groups).add (width groups rest)).clamp
termination_by structural ns => ns

def widthOfAny (groups : Nat → Width) : List (List Node) → Width
  | [] => ⟨Width.limit, 0⟩
  | a :: rest => (width groups a).join (widthOfAny groups rest)
termination_by structural as => as

end

end Stanza.Pattern
