import Stanza.Proofs.Logged
import Stanza.Proofs.Text.Blank
import Stanza.Schema.Convert

/-! # Lists of texts

A list of texts is written with commas and split at commas and semicolons. The parts come back as they were
exactly if none of them holds either.
-/
namespace Stanza.Schema

def isMark (c : Char) : Bool := c == ',' || c == ';'

def KeepsTogether (s : String) : Prop := ∀ c ∈ s.toList, isMark c = false

theorem splitList_eq (s : String) : splitList s = (s.toList.splitOnP isMark).map String.ofList := rfl

theorem splitOnP_intercalate {p : Char → Bool} {sep : Char} (hsep : p sep = true) {parts : List (List Char)}
    (hne : parts ≠ []) (h : ∀ cs ∈ parts, ∀ c ∈ cs, p c = false) :
    ([sep].intercalate parts).splitOnP p = parts := by
  induction parts with
  | nil => exact absurd rfl hne
  | cons cs rest ih =>
    have hcs := h cs List.mem_cons_self
    cases rest with
    | nil => rw [List.intercalate_singleton, List.splitOnP_eq_singleton hcs]
    | cons ds rest =>
      rw [List.intercalate_cons_cons, List.append_assoc, List.singleton_append,
        List.splitOnP_append_cons_of_forall_mem hcs sep hsep,
        ih (by simp) fun es hes => h es (List.mem_cons_of_mem _ hes)]

/-- Parts without a mark in them are found again. -/
theorem splitList_intercalate {parts : List String} (hne : parts ≠ []) (h : ∀ s ∈ parts, KeepsTogether s) :
    splitList (",".intercalate parts) = parts := by
  have hc : ∀ cs ∈ parts.map String.toList, ∀ c ∈ cs, isMark c = false := by
    intro cs hcs c hc
    obtain ⟨s, hs, rfl⟩ := List.mem_map.mp hcs
    exact h s hs c hc
  rw [splitList_eq, String.toList_intercalate, show ",".toList = [','] from rfl,
    splitOnP_intercalate (by decide) (by simpa using hne) hc, List.map_map]
  simp

theorem forall_of_mem_splitOnP {p : Char → Bool} {cs : List Char} :
    ∀ part ∈ cs.splitOnP p, ∀ c ∈ part, p c = false := by
  induction cs with
  | nil => simp
  | cons d cs ih =>
    rw [List.splitOnP_cons_eq_if_modifyHead]
    split
    · intro part hp
      rcases List.mem_cons.mp hp with rfl | hp
      · simp
      · exact ih part hp
    · next hd =>
      intro part hp c hc
      cases hs : cs.splitOnP p with
      | nil => exact absurd hs (List.splitOnP_ne_nil _ _)
      | cons head tail =>
        rw [hs] at hp ih
        rcases List.mem_cons.mp hp with rfl | hp
        · rcases List.mem_cons.mp hc with rfl | hc
          · simpa using hd
          · exact ih head List.mem_cons_self c hc
        · exact ih part (List.mem_cons_of_mem _ hp) c hc

theorem keepsTogether_of_mem_splitList {s part : String} (h : part ∈ splitList s) : KeepsTogether part := by
  obtain ⟨cs, hcs, rfl⟩ := List.mem_map.mp h
  intro c hc
  rw [String.toList_ofList] at hc
  exact forall_of_mem_splitOnP cs hcs c hc

theorem KeepsTogether.trimmed {s : String} (h : KeepsTogether s) : KeepsTogether (Text.trimmed s) := by
  intro c hc
  rw [Text.trimmed, String.toList_ofList] at hc
  exact h c (Text.mem_of_mem_trim hc)

/-! ## Trimmed parts -/

def IsPart (s : String) : Prop := s ≠ "" ∧ Text.trimmed s = s

theorem mem_trimParts {parts : List String} {s : String} :
    s ∈ trimParts parts ↔ s ≠ "" ∧ ∃ t ∈ parts, Text.trimmed t = s := by
  rw [trimParts, List.mem_filter, List.mem_map]
  simp [and_comm]

theorem isPart_of_mem_trimParts {parts : List String} {s : String} (h : s ∈ trimParts parts) : IsPart s := by
  obtain ⟨hne, t, _, rfl⟩ := mem_trimParts.mp h
  exact ⟨hne, Text.trimmed_trimmed t⟩

theorem trimParts_of_forall {parts : List String} (h : ∀ s ∈ parts, IsPart s) : trimParts parts = parts := by
  have hm : parts.map Text.trimmed = parts :=
    (List.map_congr_left fun s hs => (h s hs).2).trans (List.map_id parts)
  rw [trimParts, hm, List.filter_eq_self]
  intro s hs
  simpa using (h s hs).1

/-- Writing a list of parts and reading it gives the list, exactly if no part holds a mark. -/
theorem trimParts_splitList_iff {parts : List String} (h : ∀ s ∈ parts, IsPart s) :
    trimParts (splitList (",".intercalate parts)) = parts ↔ ∀ s ∈ parts, KeepsTogether s := by
  constructor
  · intro heq s hs
    rw [← heq] at hs
    obtain ⟨_, t, ht, rfl⟩ := mem_trimParts.mp hs
    exact (keepsTogether_of_mem_splitList ht).trimmed
  · intro hk
    cases parts with
    | nil => decide
    | cons s rest => rw [splitList_intercalate (by simp) hk, trimParts_of_forall h]

end Stanza.Schema
