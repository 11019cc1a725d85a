import Stanza.Pattern.Matching
import Stanza.Pattern.Reading

/-!
# Compiled patterns

A pattern is compiled once and then searched for in texts. What a look-behind looks for has one width.
-/

namespace Stanza

structure Pattern where
  source : String
  flags : Pattern.Flags
  nodes : List Pattern.Node
  groups : Nat → Pattern.Width

namespace Pattern

def behindLimit : Nat := 0xffffffff

def behindFlaw? (w : Width) : Option Flaw :=
  if w.lo > behindLimit then some .distantLookBehind
  else if w.lo ≠ w.hi then some .unboundedLookBehind
  else none

mutual

def Node.flaw? (groups : Nat → Width) (template : Bool) : Node → Option Flaw
  | .anchor _ | .any | .char _ | .set .. | .reference _ => none
  | .group _ _ _ body | .atomic body => flaw? groups template body
  | .look behind _ body =>
    (if behind then behindFlaw? (width groups body) else none) <|> flaw? groups template body
  | .condition _ yes no => flaw? groups template yes <|> flaw? groups template no
  | .branch alternatives => flawOfAny? groups template alternatives
  | .repeat greed _ _ body =>
    if template then some (.templateRepeat greed.operator) else flaw? groups template body
termination_by structural n => n

def flaw? (groups : Nat → Width) (template : Bool) : List Node → Option Flaw
  | [] => none
  | n :: rest => n.flaw? groups template <|> flaw? groups template rest
termination_by structural ns => ns

def flawOfAny? (groups : Nat → Width) (template : Bool) : List (List Node) → Option Flaw
  | [] => none
  | a :: rest => flaw? groups template a <|> flawOfAny? groups template rest
termination_by structural as => as

end

def compile (source : String) : Except Error Pattern := do
  let (flags, nodes, groups) ← read source
  match flaw? groups (flags.contains .template) nodes with
  | some flaw => throw (.malformed flaw none)
  | none => return { source, flags, nodes, groups }

class Compiler where
  compile : String → Except Error Pattern

instance : Compiler := ⟨compile⟩

def matchesAt (p : Pattern) (before after : List Char) : Bool :=
  (runAll p.groups (Mode.of p.flags) p.nodes { before, after } some).isSome

def searchFrom (p : Pattern) (before : List Char) : List Char → Bool
  | [] => p.matchesAt before []
  | c :: rest => p.matchesAt before (c :: rest) || p.searchFrom (c :: before) rest

def search (p : Pattern) (text : String) : Bool := p.searchFrom [] text.toList

def matchesAll (p : Pattern) (text : String) : Bool :=
  (runAll p.groups (Mode.of p.flags) p.nodes { before := [], after := text.toList } fun q =>
    if q.after.isEmpty then some q else none).isSome

end Pattern

end Stanza
