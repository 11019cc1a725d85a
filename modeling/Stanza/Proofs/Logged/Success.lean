import Stanza.Proofs.Logged

/-! # Computations that give a result

Whether a computation in steps gives a result at all, apart from what the result is.
-/
namespace Except

variable {ε ε' α β : Type}

def Succeeds (x : Except ε α) : Prop := ∃ a, x = .ok a

theorem succeeds_ok (a : α) : (.ok a : Except ε α).Succeeds := ⟨a, rfl⟩

theorem not_succeeds_error (e : ε) : ¬ (.error e : Except ε α).Succeeds := by
  rintro ⟨a, h⟩
  cases h

theorem isSome_toOption_iff {x : Except ε α} : x.toOption.isSome = true ↔ x.Succeeds := by
  cases x with
  | ok a => exact iff_of_true rfl (succeeds_ok a)
  | error e => exact iff_of_false nofun (not_succeeds_error e)

theorem succeeds_map_iff {x : Except ε α} {f : α → β} : (f <$> x).Succeeds ↔ x.Succeeds := by
  constructor
  · rintro ⟨b, h⟩
    obtain ⟨a, ha, _⟩ := map_eq_ok_iff.mp h
    exact ⟨a, ha⟩
  · rintro ⟨a, h⟩
    exact ⟨f a, map_eq_ok_iff.mpr ⟨a, h, rfl⟩⟩

theorem succeeds_mapError_iff {x : Except ε α} {f : ε → ε'} : (x.mapError f).Succeeds ↔ x.Succeeds :=
  exists_congr fun _ => mapError_eq_ok_iff

/-- A second step that succeeds on some condition whatever the first one gave. -/
theorem succeeds_bind_iff {x : Except ε α} {f : α → Except ε β} {p : Prop} (hf : ∀ a, x = .ok a → ((f a).Succeeds ↔ p)) :
    (x >>= f).Succeeds ↔ x.Succeeds ∧ p := by
  constructor
  · rintro ⟨b, h⟩
    obtain ⟨a, ha, hb⟩ := bind_eq_ok_iff.mp h
    exact ⟨⟨a, ha⟩, (hf a ha).mp ⟨b, hb⟩⟩
  · rintro ⟨⟨a, ha⟩, hp⟩
    obtain ⟨b, hb⟩ := (hf a ha).mpr hp
    exact ⟨b, bind_eq_ok_iff.mpr ⟨a, ha, hb⟩⟩

theorem succeeds_mapM_iff {f : α → Except ε β} {xs : List α} : (xs.mapM f).Succeeds ↔ ∀ x ∈ xs, (f x).Succeeds := by
  constructor
  · rintro ⟨ys, h⟩ x hx
    obtain ⟨y, _, hy⟩ := (mapM_eq_ok_iff.mp h).exists_of_mem_left hx
    exact ⟨y, hy⟩
  · intro h
    obtain ⟨ys, hys⟩ := List.exists_forall₂ h
    exact ⟨ys, mapM_eq_ok_iff.mpr hys⟩

/-- What every step of a loop preserves holds of its result. -/
theorem of_foldlM {P : β → Prop} {f : β → α → Except ε β} {xs : List α}
    (hf : ∀ x ∈ xs, ∀ b c, P b → f b x = .ok c → P c) {b c : β} (hb : P b) (h : xs.foldlM f b = .ok c) : P c := by
  induction xs generalizing b with
  | nil =>
    cases h
    exact hb
  | cons x xs ih =>
    rw [List.foldlM_cons] at h
    obtain ⟨d, hd, h⟩ := bind_eq_ok_iff.mp h
    obtain ⟨hhead, htail⟩ := List.forall_mem_cons.mp hf
    exact ih htail (hhead b d hb hd) h

/-- A loop each of whose steps succeeds. -/
theorem succeeds_foldlM {f : β → α → Except ε β} {xs : List α} (hf : ∀ x ∈ xs, ∀ b, (f b x).Succeeds) (b : β) :
    (xs.foldlM f b).Succeeds := by
  induction xs generalizing b with
  | nil => exact succeeds_ok b
  | cons x xs ih =>
    obtain ⟨hhead, htail⟩ := List.forall_mem_cons.mp hf
    obtain ⟨c, hc⟩ := hhead b
    rw [List.foldlM_cons, hc]
    exact ih htail c

end Except
