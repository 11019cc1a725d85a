import Stanza.Pattern.Error

/-!
# Pattern texts

A pattern is read in tokens: a backslash with the character after it, or any other character. A backslash
at the very end is an error as soon as the reader stands before it.
-/

namespace Stanza.Pattern

abbrev Token := List Char

def tokens : List Char → List Token
  | '\\' :: c :: rest => ['\\', c] :: tokens rest
  | c :: rest => [c] :: tokens rest
  | [] => []

structure Source where
  rest : List Token
  position : Nat

def extent (ts : List Token) : Nat := ts.flatten.length

def danglingToken : Token := ['\\']

namespace Source

def fail (s : Source) (flaw : Flaw) (back : Nat) : Except Error α :=
  .error (.malformed flaw (some (s.position - back)))

def drop (s : Source) (n : Nat) : Except Error Source :=
  if (s.rest.take (n + 1)).contains danglingToken then
    .error (.malformed .danglingBackslash (some (s.position + extent s.rest - 1)))
  else .ok ⟨s.rest.drop n, s.position + extent (s.rest.take n)⟩

def ofText (s : String) : Except Error Source := Source.drop ⟨tokens s.toList, 0⟩ 0

def next? (s : Source) : Option Token := s.rest.head?

def take (s : Source) : Except Error (Option Token × Source) := do
  match s.rest with
  | [] => return (none, s)
  | t :: _ => return (some t, ← s.drop 1)

def accept (s : Source) (c : Char) : Except Error (Bool × Source) := do
  if s.next? = some [c] then return (true, ← s.drop 1) else return (false, s)

def isSingle (p : Char → Bool) : Token → Bool
  | [c] => p c
  | _ => false

def takeWhile (s : Source) (limit : Nat) (p : Char → Bool) : Except Error (List Char × Source) := do
  let run := (s.rest.take limit).takeWhile (isSingle p)
  return (run.flatten, ← s.drop run.length)

def takeUntil (s : Source) (closing : Char) (what : String) : Except Error (List Char × Source) := do
  let run := s.rest.takeWhile (· != [closing])
  let name := run.flatten
  if run.length == s.rest.length then
    let s ← s.drop run.length
    if name.isEmpty then s.fail (.missing what) 0
    else s.fail (.unterminatedName closing) name.length
  else
    let s ← s.drop (run.length + 1)
    if name.isEmpty then s.fail (.missing what) 1 else return (name, s)

end Source

end Stanza.Pattern
