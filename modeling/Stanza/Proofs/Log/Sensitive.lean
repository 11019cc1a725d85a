import Mathlib.Data.List.Infix
import Stanza.Log.Redaction
import Stanza.Proofs.Text.Blank
import Stanza.Redaction

/-! # Keys that name secrets

Whether a key names a secret is told by its words where a configuration is shown and by any part of it in the log. A
word of a key is a part of it, for neither blanks nor underscores between small letters and capitals are ever in a word,
so what is hidden in a configuration is hidden in the log.
-/
namespace Stanza

namespace Text

variable {w xs ys cs : List Char} {c : Char}

theorem infix_of_infix_append_cons (hc : c ∉ w) (h : w <:+: xs ++ c :: ys) : w <:+: xs ∨ w <:+: ys := by
  have hstart : ∀ {v : List Char}, c ∉ v → v <+: c :: ys → v = [] := by
    intro v hv hp
    rcases List.prefix_cons_iff.mp hp with rfl | ⟨_, rfl, _⟩
    · rfl
    · exact absurd List.mem_cons_self hv
  rcases List.infix_append_iff.mp h with h | h | ⟨u, v, rfl, hu, hv⟩
  · exact .inl h
  · rcases List.infix_cons_iff.mp h with h | h
    · rw [hstart hc h]
      exact .inl (List.nil_infix)
    · exact .inr h
  · rw [hstart (fun hm => hc (List.mem_append_right u hm)) hv, List.append_nil]
    exact .inl hu.isInfix

/-- A part without separators is in one of the pieces. -/
theorem exists_infix_of_intercalate (hc : c ∉ w) (part : List Char) (parts : List (List Char))
    (h : w <:+: [c].intercalate (part :: parts)) : ∃ piece ∈ part :: parts, w <:+: piece := by
  induction parts generalizing part with
  | nil => exact ⟨part, List.mem_cons_self, by rwa [List.intercalate_singleton] at h⟩
  | cons next parts ih =>
    rw [List.intercalate_cons_cons, List.append_assoc, List.singleton_append] at h
    rcases infix_of_infix_append_cons hc h with h | h
    · exact ⟨part, List.mem_cons_self, h⟩
    · obtain ⟨piece, hpiece, hw⟩ := ih next h
      exact ⟨piece, List.mem_cons_of_mem _ hpiece, hw⟩

/-- The pieces between separators are parts of the text, the first one its beginning. -/
theorem exists_splitOnP (p : Char → Bool) (cs : List Char) : ∃ first others, cs.splitOnP p = first :: others
    ∧ first <+: cs ∧ ∀ piece ∈ first :: others, piece <:+: cs ∧ ∀ c ∈ piece, p c = false := by
  induction cs with
  | nil => exact ⟨[], [], List.splitOnP_nil, List.prefix_rfl, by simp⟩
  | cons c cs ih =>
    obtain ⟨first, others, heq, hfirst, hpieces⟩ := ih
    have hmore : ∀ piece ∈ first :: others, piece <:+: c :: cs ∧ ∀ c ∈ piece, p c = false :=
      fun piece hm => ⟨List.infix_cons (hpieces piece hm).1, (hpieces piece hm).2⟩
    rw [List.splitOnP_cons_eq_if_modifyHead, heq]
    cases hc : p c with
    | true => exact ⟨[], first :: others, rfl, List.nil_prefix, List.forall_mem_cons.mpr ⟨by simp, hmore⟩⟩
    | false =>
      have hcons : c :: first <+: c :: cs := (List.prefix_cons_inj c).mpr hfirst
      refine ⟨c :: first, others, rfl, hcons, List.forall_mem_cons.mpr ⟨⟨hcons.isInfix, ?_⟩, ?_⟩⟩
      · exact List.forall_mem_cons.mpr ⟨hc, (hmore first List.mem_cons_self).2⟩
      · exact fun piece hm => hmore piece (List.mem_cons_of_mem _ hm)

theorem infix_of_mem_splitOnP {p : Char → Bool} (h : w ∈ cs.splitOnP p) : w <:+: cs ∧ ∀ c ∈ w, p c = false := by
  obtain ⟨first, others, heq, -, hpieces⟩ := exists_splitOnP p cs
  exact hpieces w (heq ▸ h)

/-! ## Small letters -/

theorem lower_append (xs ys : List Char) : lower (xs ++ ys) = lower xs ++ lower ys := List.flatMap_append

theorem infix_lower (h : xs <:+: ys) : lower xs <:+: lower ys := h.flatMap lowerChar

theorem lower_intercalate (part : List Char) (parts : List (List Char)) :
    lower (['_'].intercalate (part :: parts)) = ['_'].intercalate ((part :: parts).map lower) := by
  induction parts generalizing part with
  | nil => simp only [List.map_cons, List.map_nil, List.intercalate_singleton]
  | cons next parts ih =>
    rw [List.intercalate_cons_cons, lower_append, lower_append, ih]
    simp only [List.map_cons, List.intercalate_cons_cons]
    rfl

theorem infix_trim (cs : List Char) : trim cs <:+: cs :=
  (List.rdropWhile_prefix _ _).isInfix.trans (List.dropWhile_suffix _).isInfix

end Text

open Text

/-! ## The words of a key -/

namespace Redaction

variable {key w : List Char}

/-- An underscore before a capital cuts a key into pieces and changes nothing else. -/
theorem exists_splitCapitals (cs : List Char) : ∃ part parts,
    (part :: parts).flatten = cs ∧ splitCapitals cs = ['_'].intercalate (part :: parts) := by
  fun_induction splitCapitals cs with
  | case1 a b rest hcut ih =>
    obtain ⟨part, parts, hflat, heq⟩ := ih
    exact ⟨[a], part :: parts, by rw [List.flatten_cons, hflat]; rfl, by rw [heq, List.intercalate_cons_cons]; rfl⟩
  | case2 a b rest hcut ih =>
    obtain ⟨part, parts, hflat, heq⟩ := ih
    refine ⟨a :: part, parts, ?_, ?_⟩
    · rw [← hflat]
      rfl
    · rw [heq]
      cases parts with
      | nil => simp only [List.intercalate_singleton]
      | cons next parts => simp only [List.intercalate_cons_cons, List.cons_append]
  | case3 cs => exact ⟨cs, [], by simp, by simp⟩

/-- A part without underscores is in the key as it was. -/
theorem infix_lower_of_splitCapitals (hw : '_' ∉ w) (h : w <:+: lower (splitCapitals key)) : w <:+: lower key := by
  obtain ⟨part, parts, hflat, heq⟩ := exists_splitCapitals key
  rw [heq, lower_intercalate, List.map_cons] at h
  obtain ⟨piece, hpiece, hpart⟩ := exists_infix_of_intercalate hw _ _ h
  rw [← List.map_cons] at hpiece
  obtain ⟨original, horiginal, rfl⟩ := List.mem_map.mp hpiece
  rw [← hflat]
  exact hpart.trans (infix_lower (List.infix_of_mem_flatten horiginal))

theorem infix_lower_of_mem_words (h : w ∈ words key) : w <:+: lower key := by
  obtain ⟨hpart, hsmall⟩ := infix_of_mem_splitOnP (List.mem_filter.mp h).1
  have hw : '_' ∉ w := fun hm => absurd (hsmall '_' hm) (by decide)
  exact (infix_lower_of_splitCapitals hw hpart).trans (infix_lower (infix_trim key))

end Redaction

/-! ## Parts of a key -/

namespace Log

theorem occursIn_iff {word cs : List Char} : occursIn word cs = true ↔ word <:+: cs := by
  induction cs with
  | nil => rw [occursIn, List.isEmpty_iff, List.infix_nil]
  | cons c cs ih => rw [occursIn, Bool.or_eq_true, List.isPrefixOf_iff_prefix, ih, List.infix_cons_iff]

theorem isSensitive_iff {key : String} :
    isSensitive key = true ↔ ∃ term ∈ sensitiveTerms, term.toList <:+: lower key.toList := by
  simp only [isSensitive, List.any_eq_true, occursIn_iff]

theorem exists_term_infix : ∀ word ∈ Redaction.sensitiveWords, ∃ term ∈ sensitiveTerms, term.toList <:+: word.toList := by
  decide

/-- What is hidden where a configuration is shown is hidden in the log as well. -/
theorem isSensitive_of_hidden (key : String) (h : Redaction.isSensitive key = true) : isSensitive key = true := by
  obtain ⟨w, hw, hword⟩ := List.any_eq_true.mp h
  obtain ⟨term, hterm, hpart⟩ := exists_term_infix _ (List.contains_iff_mem.mp hword)
  rw [String.toList_ofList] at hpart
  exact isSensitive_iff.mpr ⟨term, hterm, hpart.trans (Redaction.infix_lower_of_mem_words hw)⟩

/-- Blanks and letters of other scripts around it, capitals and digits in it, and a Kelvin sign for a letter. -/
theorem isSensitive_of_hidden_mixed : Redaction.isSensitive "\u2003Σx9To\u212aEN-İd " = true
    ∧ isSensitive "\u2003Σx9To\u212aEN-İd " = true := by
  have h : Redaction.isSensitive "\u2003Σx9To\u212aEN-İd " = true := by decide +kernel
  exact ⟨h, isSensitive_of_hidden _ h⟩

/-- The log hides more. -/
example : Redaction.isSensitive "passphrase" = false ∧ isSensitive "passphrase" = true := by decide +kernel

end Log

end Stanza
