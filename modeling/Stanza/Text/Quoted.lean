/-!
# Double-quoted text

A backslash and a double quote are written after a backslash; read back, a backslash yields the
character after it.
-/

namespace Stanza.Text

def escapeChar (c : Char) : List Char :=
  if c = '\\' ∨ c = '"' then ['\\', c] else [c]

def escape (cs : List Char) : List Char := cs.flatMap escapeChar

def unescape : List Char → List Char
  | '\\' :: c :: rest => c :: unescape rest
  | c :: rest => c :: unescape rest
  | [] => []

theorem unescape_escape (cs : List Char) : unescape (escape cs) = cs := by
  induction cs with
  | nil => rfl
  | cons c rest ih =>
    simp only [escape, List.flatMap_cons] at ih ⊢
    by_cases h : c = '\\' ∨ c = '"'
    · simp [escapeChar, h, unescape, ih]
    · obtain ⟨hb, _⟩ := not_or.1 h
      rw [escapeChar, if_neg h, List.singleton_append, unescape.eq_2 _ _ (by simp [hb]), ih]

def escaped (s : String) : String := String.ofList (escape s.toList)

def quoted (s : String) : String := "\"" ++ escaped s ++ "\""

end Stanza.Text
