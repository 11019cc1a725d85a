import Mathlib.Data.List.DropRight
import Stanza.Text.Blank

/-! # Blanks around a text

Trimming keeps a text that has no blank at either end, which its own results are.
-/
namespace Stanza.Text

theorem trimEnd_eq_rdropWhile (cs : List Char) : trimEnd cs = cs.rdropWhile isBlank := rfl

theorem trim_of_forall {cs : List Char} (h : ∀ c ∈ cs, isBlank c = false) : trim cs = cs := by
  have hstart : trimStart cs = cs := by
    rw [trimStart, List.dropWhile_eq_self_iff]
    intro hl
    simp [h _ (List.getElem_mem hl)]
  rw [trim, hstart, trimEnd_eq_rdropWhile, List.rdropWhile_eq_self_iff]
  intro hne
  simp [h _ (List.getLast_mem hne)]

theorem mem_of_mem_trim {cs : List Char} {c : Char} (h : c ∈ trim cs) : c ∈ cs :=
  (List.dropWhile_suffix _).subset ((List.rdropWhile_prefix _ _).subset h)

theorem trim_trim (cs : List Char) : trim (trim cs) = trim cs := by
  obtain ⟨rest, hrest⟩ : trim cs <+: trimStart cs := List.rdropWhile_prefix _ _
  have hstart : trimStart (trim cs) = trim cs := by
    rw [trimStart, List.dropWhile_eq_self_iff]
    intro hl
    have hs : trimStart (trimStart cs) = trimStart cs := List.dropWhile_idempotent _ _
    rw [trimStart, List.dropWhile_eq_self_iff] at hs
    have hhead := hs (by rw [← hrest, List.length_append]; omega)
    simpa only [← hrest, List.getElem_append_left hl] using hhead
  rw [trim, hstart, trimEnd_eq_rdropWhile]
  exact List.rdropWhile_idempotent _ _

theorem trimmed_trimmed (s : String) : trimmed (trimmed s) = trimmed s := by
  rw [trimmed, trimmed, String.toList_ofList, trim_trim]

/-! ## Blanks at one end -/

theorem trimStart_of_trim {cs : List Char} (h : trim cs = cs) : trimStart cs = cs := by
  have hsub : cs.Sublist (trimStart cs) := by
    conv => lhs; rw [← h]
    exact (List.rdropWhile_prefix _ _).sublist
  exact (List.dropWhile_sublist _).antisymm hsub

theorem trimEnd_of_trim {cs : List Char} (h : trim cs = cs) : trimEnd cs = cs := by
  rwa [trim, trimStart_of_trim h] at h

theorem isBlank_head_of_trim {cs : List Char} (h : trim cs = cs) (hne : cs ≠ []) : isBlank (cs.head hne) = false := by
  cases cs with
  | nil => exact absurd rfl hne
  | cons c cs =>
    have hstart := List.dropWhile_eq_self_iff.mp (trimStart_of_trim h)
    simpa using hstart (Nat.zero_lt_succ _)

theorem trimStart_append {cs : List Char} (h : trimStart cs = cs) (hne : cs ≠ []) (rest : List Char) :
    trimStart (cs ++ rest) = cs ++ rest := by
  cases cs with
  | nil => exact absurd rfl hne
  | cons c cs =>
    rw [trimStart, List.dropWhile_eq_self_iff] at h ⊢
    exact fun _ => h (Nat.zero_lt_succ _)

theorem trimEnd_concat (cs : List Char) {c : Char} (hc : isBlank c = true) : trimEnd (cs ++ [c]) = trimEnd cs :=
  List.rdropWhile_concat_pos _ _ _ hc

theorem trimEnd_append_cons (cs : List Char) {c : Char} (hc : isBlank c = false) (rest : List Char) :
    trimEnd (cs ++ c :: rest) = cs ++ c :: trimEnd rest := by
  induction rest using List.reverseRecOn with
  | nil => exact List.rdropWhile_concat_neg _ _ _ (by simp [hc])
  | append_singleton rest d ih =>
    rw [← List.cons_append, ← List.append_assoc]
    by_cases hd : isBlank d = true
    · rw [trimEnd_concat _ hd, trimEnd_concat _ hd, ih]
    · simp only [trimEnd_eq_rdropWhile]
      rw [List.rdropWhile_concat_neg _ _ _ hd, List.rdropWhile_concat_neg _ _ _ hd]
      simp

/-- A blank before a text and one after it do not count, whichever end is trimmed first. -/
theorem trim_trimEnd_between {cs : List Char} (h : trim cs = cs) {c d : Char} (hc : isBlank c = true)
    (hd : isBlank d = true) : trim (trimEnd (c :: (cs ++ [d]))) = cs := by
  have hcons : trimStart (c :: cs) = cs := by
    rw [trimStart, List.dropWhile_cons_of_pos hc]
    exact trimStart_of_trim h
  rw [← List.cons_append, trimEnd_concat _ hd]
  rcases List.eq_nil_or_concat' cs with rfl | ⟨cs, last, rfl⟩
  · rw [show [c] = [] ++ [c] from rfl, trimEnd_concat _ hc]
    rfl
  · have hlast : isBlank last = false := by
      have hend := trimEnd_of_trim h
      rw [trimEnd_eq_rdropWhile, List.rdropWhile_eq_self_iff] at hend
      simpa using hend (by simp)
    rw [← List.cons_append, trimEnd_append_cons _ hlast, List.cons_append]
    change trimEnd (trimStart (c :: (cs ++ [last]))) = _
    rw [hcons, trimEnd_of_trim h]

end Stanza.Text
