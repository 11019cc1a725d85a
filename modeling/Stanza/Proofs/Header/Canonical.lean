import Stanza.Database.Profile
import Stanza.Proofs.Header

/-! # Canonical headers

Headers that are parsed are clean, and clean headers are parsed from their written form. So parsing what is
written gives back exactly the clean headers, and writing what is parsed gives a canonical spelling of it.
-/
namespace Stanza.Header

theorem isForbidden_eq_false_iff {c : Char} :
    isForbidden c = false ↔ ¬(c.toNat ≤ 0x8 ∨ (0xe ≤ c.toNat ∧ c.toNat ≤ 0x1f) ∨ c.toNat = 0x7f) := by
  simp [isForbidden, and_assoc]

theorem clean_iff {h : Header} : h.Clean ↔
    (h.name ≠ "" ∧ ∀ c ∈ h.name.toList, c.isAlphanum = true ∨ c = '-') ∧
    ∀ sub, h.subsection = some sub → ∀ c ∈ sub.toList,
      ¬(c.toNat ≤ 0x8 ∨ (0xe ≤ c.toNat ∧ c.toNat ≤ 0x1f) ∨ c.toNat = 0x7f) := by
  have hname : ∀ c, isNameChar c = true ↔ c.isAlphanum = true ∨ c = '-' := by simp [isNameChar]
  simp only [← hname, ← isForbidden_eq_false_iff]
  exact ⟨fun hc => ⟨⟨hc.name_ne, hc.name⟩, hc.subsection⟩, fun hc => ⟨hc.1.1, hc.1.2, hc.2⟩⟩

/-! ## Headers that are parsed -/

theorem eq_of_unbracket? {cs inner : List Char} (h : unbracket? cs = some inner) : cs = '[' :: (inner ++ [']']) := by
  unfold unbracket? at h
  split at h
  · next rest =>
    split at h
    · next hlast =>
      cases h
      rw [List.dropLast_append_getLast? _ hlast]
    · cases h
  · cases h

theorem ne_nil_of_splitName {cs name : List Char} {rest : Option (List Char)} (h : splitName cs = some (name, rest)) :
    name ≠ [] := by
  rintro rfl
  have ht := (splitName_eq_some h).1
  rw [splitName, ← ht] at h
  cases h

/-- What is parsed begins and ends with a bracket, and the text between has a section name first. -/
theorem exists_key_of_parse {text : String} {h : Header} (hp : parse text = .ok h) :
    ∃ key, text = "[" ++ key ++ "]" ∧ h.name ≠ "" := by
  rw [parse, Except.mapError_eq_ok_iff, read] at hp
  have hsplit : ∃ name rest, (unbracket? text.toList).bind splitName = some (name, rest) ∧ h.name = String.ofList name := by
    split at hp
    · cases hp
    · next name hs =>
      cases hp
      exact ⟨name, none, hs, rfl⟩
    · next name sub hs =>
      obtain ⟨cs, _, hp⟩ := Except.bind_eq_ok_iff.mp hp
      cases hp
      exact ⟨name, some sub, hs, rfl⟩
  obtain ⟨name, rest, hs, hname⟩ := hsplit
  obtain ⟨inner, hi, hs⟩ := Option.bind_eq_some_iff.mp hs
  refine ⟨String.ofList inner, ?_, ?_⟩
  · rw [← String.toList_inj, eq_of_unbracket? hi]
    simp
  · rw [hname, ne_eq, ← String.toList_inj, String.toList_ofList]
    exact ne_nil_of_splitName hs

theorem clean_of_parse {text : String} {h : Header} (hp : parse text = .ok h) : h.Clean := by
  obtain ⟨key, rfl, hne⟩ := exists_key_of_parse hp
  obtain ⟨hname, hsub⟩ := parse_label_eq_ok hp
  refine ⟨hne, fun c hc => ?_, fun sub hs c hc => (hsub sub hs c hc).1⟩
  rw [hname] at hc
  exact List.mem_takeWhile_imp hc

/-- With a name that can be written, a header is parsed as itself or not at all. -/
theorem eq_of_parse_format {h header : Header} (hne : h.name ≠ "") (hn : ∀ c ∈ h.name.toList, isNameChar c = true)
    (hp : parse h.format = .ok header) : header = h := by
  by_cases hc : h.Clean
  · exact Except.ok.inj (hp.symm.trans (parse_format hc))
  obtain ⟨name, subsection⟩ := h
  cases subsection with
  | none => exact absurd ⟨hne, hn, nofun⟩ hc
  | some sub =>
    have hforbidden : (Text.quoted sub).toList.any isForbidden = true := by
      by_contra hf
      rw [List.any_eq_true] at hf
      refine hc ⟨hne, hn, ?_⟩
      rintro _ ⟨⟩ c hm
      exact Bool.eq_false_iff.mpr fun h => hf ⟨c, Text.mem_quoted hm, h⟩
    have hf : (format ⟨name, some sub⟩).toList
        = '[' :: ((name.toList ++ ' ' :: (Text.quoted sub).toList) ++ [']']) := by simp [format, label]
    have hnil : name.toList ≠ [] := by simpa using hne
    rw [parse, Except.mapError_eq_ok_iff, read, hf, unbracket?_append, Option.bind_some, splitName_gap hnil hn, hforbidden] at hp
    cases hp

/-- Exactly the clean headers are parsed as themselves from their written form, and so are all that are parsed
from any text. The labels that messages use for databases are such forms. -/
theorem parse_format_iff :
    (∀ h : Header, parse h.format = .ok h ↔
      (h.name ≠ "" ∧ ∀ c ∈ h.name.toList, c.isAlphanum = true ∨ c = '-') ∧
      ∀ sub, h.subsection = some sub → ∀ c ∈ sub.toList,
        ¬(c.toNat ≤ 0x8 ∨ (0xe ≤ c.toNat ∧ c.toNat ≤ 0x1f) ∨ c.toNat = 0x7f)) ∧
    (∀ text h, parse text = .ok h → parse h.format = .ok h) ∧
    parse ("[" ++ Database.label none ++ "]") = .ok { name := "database" } ∧
    ∀ name, parse ("[" ++ Database.label (some name) ++ "]") = .ok { name := "database", subsection := some name } ↔
      ∀ c ∈ name.toList, ¬(c.toNat ≤ 0x8 ∨ (0xe ≤ c.toNat ∧ c.toNat ≤ 0x1f) ∨ c.toNat = 0x7f) := by
  have hiff : ∀ h : Header, parse h.format = .ok h ↔ h.Clean := fun h => ⟨clean_of_parse, parse_format⟩
  have hall : "database".toList.all (fun c => c.isAlphanum || c == '-') = true := by decide
  have hdatabase : "database" ≠ "" ∧ ∀ c ∈ "database".toList, c.isAlphanum = true ∨ c = '-' :=
    ⟨by simp, fun c hc => by simpa using List.all_eq_true.mp hall c hc⟩
  refine ⟨fun h => (hiff h).trans clean_iff, ?_, ?_, ?_⟩
  · intro text h hp
    exact parse_format (clean_of_parse hp)
  · refine (hiff { name := "database" }).mpr (clean_iff.mpr ⟨hdatabase, ?_⟩)
    rintro sub ⟨⟩
  · intro name
    refine (hiff { name := "database", subsection := some name }).trans (clean_iff.trans ?_)
    constructor
    · exact fun hc => hc.2 name rfl
    · rintro hc
      refine ⟨hdatabase, ?_⟩
      rintro sub ⟨⟩
      exact hc

example : parse "[a \t \"\\\"\\]\"]" = .ok ⟨"a", some "\"]"⟩ := by rfl

end Stanza.Header
