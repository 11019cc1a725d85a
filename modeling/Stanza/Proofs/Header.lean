import Mathlib.Data.List.Induction
import Mathlib.Data.List.TakeWhile
import Stanza.Header
import Stanza.Proofs.Logged

/-! # Headers written and parsed

A header is parsed from its written form, however its subsection is called, as long as no character of the name is
one that headers forbid. The closing quote is found because the backslashes before it come in pairs.
-/
namespace Stanza

namespace Text

theorem escape_append (cs ds : List Char) : escape (cs ++ ds) = escape cs ++ escape ds := List.flatMap_append

/-- The backslashes at the end of an escaped text come in pairs. -/
theorem even_takeWhile_reverse_escape (cs : List Char) :
    ((escape cs).reverse.takeWhile (· == '\\')).length % 2 = 0 := by
  induction cs using List.reverseRecOn with
  | nil => rfl
  | append_singleton cs c ih =>
    rw [escape_append, List.reverse_append, show escape [c] = escapeChar c from List.append_nil _, escapeChar]
    by_cases hb : c = '\\'
    · subst hb
      simp only [true_or, if_true, List.reverse_cons, List.reverse_nil, List.nil_append, List.cons_append,
        beq_self_eq_true, List.takeWhile_cons_of_pos, List.length_cons]
      omega
    · by_cases hq : c = '"'
      · subst hq
        simp
      · rw [if_neg (by simp [hb, hq])]
        simp [hb]

theorem mem_of_mem_escape {cs : List Char} {c : Char} (h : c ∈ escape cs) : c = '\\' ∨ c ∈ cs := by
  obtain ⟨d, hd, hc⟩ := List.mem_flatMap.mp h
  rw [escapeChar] at hc
  split at hc
  · rcases List.mem_cons.mp hc with rfl | hc
    · exact .inl rfl
    · exact .inr (List.mem_singleton.mp hc ▸ hd)
  · exact .inr (List.mem_singleton.mp hc ▸ hd)

theorem mem_of_mem_unescape {cs : List Char} {c : Char} (h : c ∈ unescape cs) : c ∈ cs := by
  fun_induction unescape cs with
  | case1 d rest ih =>
    rcases List.mem_cons.mp h with rfl | h
    · simp
    · exact List.mem_cons_of_mem _ (List.mem_cons_of_mem _ (ih h))
  | case2 d rest _ ih =>
    rcases List.mem_cons.mp h with rfl | h
    · exact List.mem_cons_self
    · exact List.mem_cons_of_mem _ (ih h)
  | case3 => cases h

theorem toList_quoted (s : String) : (quoted s).toList = '"' :: (escape s.toList ++ ['"']) := by
  simp [quoted, escaped]

theorem mem_quoted {s : String} {c : Char} (h : c ∈ s.toList) : c ∈ (quoted s).toList := by
  rw [toList_quoted]
  refine List.mem_cons_of_mem _ (List.mem_append_left _ (List.mem_flatMap.mpr ⟨c, h, ?_⟩))
  rw [escapeChar]
  split <;> simp

end Text

namespace Header

/-- A header that can be written: a name of name characters and a subsection without forbidden ones. -/
structure Clean (h : Header) : Prop where
  name_ne : h.name ≠ ""
  name : ∀ c ∈ h.name.toList, isNameChar c = true
  subsection : ∀ sub, h.subsection = some sub → ∀ c ∈ sub.toList, isForbidden c = false

theorem endsInQuote_escape (cs : List Char) : endsInQuote (Text.escape cs ++ ['"']) = true := by
  rw [endsInQuote, List.reverse_append]
  simp [Text.even_takeWhile_reverse_escape]

theorem unquote_quoted (s : String) : unquote (Text.quoted s).toList = .ok s.toList := by
  rw [Text.toList_quoted, unquote, if_pos (endsInQuote_escape _), List.dropLast_concat, Text.unescape_escape]

theorem any_isForbidden_quoted {s : String} (h : ∀ c ∈ s.toList, isForbidden c = false) :
    (Text.quoted s).toList.any isForbidden = false := by
  rw [Text.toList_quoted, List.any_eq_false]
  intro c hc
  rcases List.mem_cons.mp hc with rfl | hc
  · decide
  rcases List.mem_append.mp hc with hc | hc
  · rcases Text.mem_of_mem_escape hc with rfl | hc
    · decide
    · simp [h c hc]
  · rw [List.mem_singleton.mp hc]
    decide

theorem unbracket?_append (cs : List Char) : unbracket? ('[' :: (cs ++ [']'])) = some cs := by
  simp [unbracket?]

theorem splitName_name {cs : List Char} (hne : cs ≠ []) (h : ∀ c ∈ cs, isNameChar c = true) :
    splitName cs = some (cs, none) := by
  cases cs with
  | nil => exact absurd rfl hne
  | cons c cs =>
    have ht : (c :: cs).takeWhile isNameChar = c :: cs := List.takeWhile_eq_self_iff.mpr h
    have hd : (c :: cs).dropWhile isNameChar = [] := List.dropWhile_eq_nil_iff.mpr h
    rw [splitName, ht, hd]

/-- Whether a quoted subsection is taken hangs on its characters alone. -/
theorem splitName_gap {cs : List Char} (hne : cs ≠ []) (h : ∀ c ∈ cs, isNameChar c = true) (s : String) :
    splitName (cs ++ ' ' :: (Text.quoted s).toList) =
      if (Text.quoted s).toList.any isForbidden then none else some (cs, some (Text.quoted s).toList) := by
  cases cs with
  | nil => exact absurd rfl hne
  | cons c cs =>
    have ht : (c :: cs ++ ' ' :: (Text.quoted s).toList).takeWhile isNameChar = c :: cs := by
      rw [List.takeWhile_append_of_pos h, List.takeWhile_cons_of_neg (by decide), List.append_nil]
    have hd : (c :: cs ++ ' ' :: (Text.quoted s).toList).dropWhile isNameChar = ' ' :: (Text.quoted s).toList := by
      rw [List.dropWhile_append_of_pos h, List.dropWhile_cons_of_neg (by decide)]
    have hgap : afterGap (' ' :: (Text.quoted s).toList) = some (Text.quoted s).toList := by
      rw [Text.toList_quoted]
      rfl
    rw [splitName, ht, hd]
    simp only [hgap]

theorem splitName_quoted {cs : List Char} (hne : cs ≠ []) (h : ∀ c ∈ cs, isNameChar c = true) {s : String}
    (hs : ∀ c ∈ s.toList, isForbidden c = false) :
    splitName (cs ++ ' ' :: (Text.quoted s).toList) = some (cs, some (Text.quoted s).toList) := by
  rw [splitName_gap hne h, any_isForbidden_quoted hs]
  rfl

/-- A written header is parsed as itself. -/
theorem parse_format {h : Header} (hc : h.Clean) : parse h.format = .ok h := by
  have hne : h.name.toList ≠ [] := by simpa using hc.name_ne
  have hread : read h.format.toList = .ok h := by
    rcases h with ⟨name, subsection⟩
    cases subsection with
    | none =>
      have hf : (format ⟨name, none⟩).toList = '[' :: (name.toList ++ [']']) := by simp [format, label]
      rw [read, hf, unbracket?_append, Option.bind_some, splitName_name hne hc.name]
      simp
    | some sub =>
      have hf : (format ⟨name, some sub⟩).toList
          = '[' :: ((name.toList ++ ' ' :: (Text.quoted sub).toList) ++ [']']) := by simp [format, label]
      rw [read, hf, unbracket?_append, Option.bind_some, splitName_quoted hne hc.name (hc.subsection sub rfl)]
      simp [unquote_quoted]
  rw [parse, hread]
  rfl

/-! ## What is parsed -/

theorem mem_of_mem_afterGap {cs sub : List Char} (h : afterGap cs = some sub) {c : Char} (hc : c ∈ sub) : c ∈ cs := by
  rw [afterGap] at h
  split at h
  · split at h
    · cases h
    · cases h
      exact List.mem_of_mem_drop hc
  · split at h
    · cases h
    · cases h
      exact (List.dropWhile_sublist _).mem hc

theorem splitName_eq_some {cs name : List Char} {rest : Option (List Char)} (h : splitName cs = some (name, rest)) :
    name = cs.takeWhile isNameChar ∧ ∀ sub, rest = some sub → ∀ c ∈ sub, isForbidden c = false ∧ c ∈ cs := by
  rw [splitName] at h
  split at h
  · cases h
  · cases h
    exact ⟨rfl, fun _ h => by cases h⟩
  · split at h
    · next sub hgap =>
      split at h
      · cases h
      · next hclean =>
        cases h
        refine ⟨rfl, fun _ hs c hc => ?_⟩
        cases hs
        refine ⟨by simpa using fun hf => hclean (List.any_eq_true.mpr ⟨c, hc, hf⟩), ?_⟩
        exact (List.dropWhile_sublist _).mem (mem_of_mem_afterGap hgap hc)
    · cases h

theorem mem_of_mem_unquote {sub cs : List Char} (h : unquote sub = .ok cs) {c : Char} (hc : c ∈ cs) : c ∈ sub := by
  unfold unquote at h
  split at h
  · split at h
    · cases h
      exact List.mem_cons_of_mem _ ((List.dropLast_sublist _).mem (Text.mem_of_mem_unescape hc))
    · cases h
  · cases h

/-- The name is the beginning of the text, and the subsection has no character that is forbidden or not there. -/
theorem parse_label_eq_ok {key : String} {h : Header} (hp : parse ("[" ++ key ++ "]") = .ok h) :
    h.name.toList = key.toList.takeWhile isNameChar ∧
      ∀ sub, h.subsection = some sub → ∀ c ∈ sub.toList, isForbidden c = false ∧ c ∈ key.toList := by
  have hl : ("[" ++ key ++ "]").toList = '[' :: (key.toList ++ [']']) := by simp
  rw [parse, Except.mapError_eq_ok_iff, read, hl, unbracket?_append, Option.bind_some] at hp
  split at hp
  · cases hp
  · next name hs =>
    cases hp
    exact ⟨by rw [String.toList_ofList, (splitName_eq_some hs).1], fun _ h => by cases h⟩
  · next name sub hs =>
    obtain ⟨hname, hsub⟩ := splitName_eq_some hs
    obtain ⟨cs, hu, hp⟩ := Except.bind_eq_ok_iff.mp hp
    cases hp
    refine ⟨by rw [String.toList_ofList, hname], fun _ h c hc => ?_⟩
    cases h
    rw [String.toList_ofList] at hc
    exact hsub sub rfl c (mem_of_mem_unquote hu hc)

end Header

end Stanza
