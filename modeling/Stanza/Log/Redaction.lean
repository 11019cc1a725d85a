import Stanza.Decimal.Shortest
import Stanza.Text.Blank
import Stanza.Text.Case
import Stanza.Text.Word
import Stanza.Value.Settings
import Stanza.Value.Text

/-!
# Redaction of log records

Everything under a key that names a secret is hidden, and so is what follows `password=`, `token:` and the
like in a text. Values are first brought into a form that every record format can hold: `plain` leaves
truth values, integers, finite numbers, texts, lists and mappings with text keys.
-/

namespace Stanza.Log

def mark : String := "***REDACTED***"

/-- A key with one of these in it names a secret. -/
def sensitiveTerms : List String :=
  ["secret", "token", "password", "passwd", "passphrase", "credential", "private_key"]

def occursIn (word : List Char) : List Char → Bool
  | [] => word.isEmpty
  | c :: rest => word.isPrefixOf (c :: rest) || occursIn word rest

def isSensitive (key : String) : Bool :=
  let small := Text.lower key.toList
  sensitiveTerms.any fun term => occursIn term.toList small

/-- What is before a colon or equals sign in a text ends in one of these if the text holds a secret. -/
def assignedTerms : List String := ["password", "passwd", "token", "secret"]

def isKeyChar (c : Char) : Bool := c == '-' || Text.isWordChar c

def isSecretChar (c : Char) : Bool := !(Text.isBlank c || c == ',' || c == ';')

def namesSecret (run : List Char) : Bool :=
  assignedTerms.any fun term =>
    let letters := term.toList.reverse
    letters.length ≤ run.length &&
      (letters.zip run.reverse).all fun (letter, c) => Text.equalIgnoringCase letter c

/-- The colon or equals sign that a text starts with, blanks apart, and what comes after the secret that
follows it. -/
def assignment? (cs : List Char) : Option (Char × List Char) :=
  match cs.dropWhile Text.isBlank with
  | sign :: rest =>
    let secret := rest.dropWhile Text.isBlank
    if (sign == ':' || sign == '=') && !(secret.takeWhile isSecretChar).isEmpty then
      some (sign, secret.dropWhile isSecretChar)
    else none
  | [] => none

theorem length_dropWhile_le (p : Char → Bool) (cs : List Char) : (cs.dropWhile p).length ≤ cs.length :=
  (List.dropWhile_suffix p).length_le

theorem assignment?_length {cs rest : List Char} {sign : Char} (h : assignment? cs = some (sign, rest)) :
    rest.length < cs.length := by
  unfold assignment? at h
  split at h
  · rename_i s r hs
    have h1 := length_dropWhile_le Text.isBlank cs
    have h2 := length_dropWhile_le Text.isBlank r
    have h3 := length_dropWhile_le isSecretChar (r.dropWhile Text.isBlank)
    simp only at h
    split at h
    · simp only [Option.some.injEq, Prod.mk.injEq] at h
      rw [hs, List.length_cons] at h1
      rw [← h.2]
      omega
    · simp at h
  · simp at h

def redactChars (cs : List Char) : List Char :=
  match cs with
  | [] => []
  | c :: rest =>
    if isKeyChar c then
      let run := (c :: rest).takeWhile isKeyChar
      let after := rest.dropWhile isKeyChar
      match namesSecret run, _h : assignment? after with
      | true, some (sign, left) => run ++ sign :: mark.toList ++ redactChars left
      | _, _ => run ++ redactChars after
    else c :: redactChars rest
termination_by cs.length
decreasing_by
  · have h1 := assignment?_length _h
    have h2 : after.length ≤ rest.length := length_dropWhile_le isKeyChar rest
    simp only [List.length_cons]
    omega
  · have h2 := length_dropWhile_le isKeyChar rest
    simp only [List.length_cons]
    omega
  · simp

def redactText (s : String) : String := String.ofList (redactChars s.toList)

def isFinite (x : Float) : Bool :=
  match Decimal.Parts.ofFloat x with
  | .infinite _ | .notANumber => false
  | _ => true

mutual

def plain : Value → Except Text.DigitLimitError Value
  | .null => .ok .null
  | .bool b => .ok (.bool b)
  | .int n => .ok (.int n)
  | .text s => .ok (.text s)
  | .float x => .ok (if isFinite x then .float x else .text mark)
  | .span s => .ok (.float s.toSeconds)
  | .list items | .tuple items => .list <$> plainItems items
  | .map entries => (.map ∘ Settings.ofPairs) <$> plainEntries entries
  | value => .text <$> value.display
termination_by structural x => x

def plainItems : List Value → Except Text.DigitLimitError (List Value)
  | [] => .ok []
  | x :: xs => do return (← plain x) :: (← plainItems xs)
termination_by structural xs => xs

def plainEntries : List (Value × Value) → Except Text.DigitLimitError (List (Value × Value))
  | [] => .ok []
  | (key, value) :: rest => do
    let name ← key.display
    let value ← plain value
    return (.text name, value) :: (← plainEntries rest)
termination_by structural es => es

end

def isSensitiveKey : Value → Bool
  | .text key => isSensitive key
  | _ => false

mutual

def hide : Value → Value
  | .text s => .text (redactText s)
  | .list items => .list (hideItems items)
  | .map entries => .map (hideEntries entries)
  | value => value
termination_by structural x => x

def hideItems : List Value → List Value
  | [] => []
  | x :: xs => hide x :: hideItems xs
termination_by structural xs => xs

def hideEntries : List (Value × Value) → List (Value × Value)
  | [] => []
  | (key, value) :: rest =>
    (key, if isSensitiveKey key then .text mark else hide value) :: hideEntries rest
termination_by structural es => es

end

def redact (value : Value) : Except Text.DigitLimitError Value := hide <$> plain value

end Stanza.Log
