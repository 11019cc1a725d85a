import Stanza.Proofs.Logged.Success
import Stanza.Proofs.Schema.Failure
import Stanza.Proofs.Value.Leaves
import Stanza.Value.Json

/-! # Values that can be rendered

A value of a file has a text unless an integer in it is too long to be written, and if its keys are texts it has a JSON
form unless there is such an integer, a date, a time or a value of another type in it.
-/
namespace Stanza

theorem Text.succeeds_writeInteger_iff {n : Int} : (Text.writeInteger n).Succeeds ↔ Text.Writable n := by
  constructor
  · rintro ⟨s, h⟩
    by_contra hn
    rw [Text.writeInteger_eq_error_iff.mpr ⟨hn, rfl⟩] at h
    cases h
  · intro h
    exact ⟨_, Text.writeInteger_of_writable h⟩

theorem succeeds_digits_iff {α : Type} {x : Except Text.DigitLimitError α} : (digits x).Succeeds ↔ x.Succeeds :=
  Except.succeeds_mapError_iff

namespace Value

/-! ## Text -/

theorem literals_eq_mapM (items : List Value) : literals items = items.mapM literal := by
  induction items with
  | nil => rfl
  | cons x xs ih => rw [literals, ih, List.mapM_cons]

theorem entryLiterals_eq_mapM (es : Settings) : entryLiterals es = es.mapM fun e => do
    let key ← e.1.literal
    let value ← e.2.literal
    return key ++ ": " ++ value := by
  induction es with
  | nil => rfl
  | cons e es ih => simp only [entryLiterals, ih, List.mapM_cons, bind_assoc, pure_bind]

variable {v : Value}

def Short : Value → Prop
  | .int n => Text.Writable n
  | .period p => p.Writable
  | .foreign x => x.literal?.isSome = true
  | _ => True

theorem short_iff_writable (h : v.isScalar = true) : v.Short ↔ v.Writable := by
  cases v with
  | list _ | tuple _ | map _ | period _ | span _ | path _ => cases h
  | _ => exact Iff.rfl

theorem succeeds_periodLiteral_iff {p : Period} : (periodLiteral p).Succeeds ↔ p.Writable := by
  have hfields : (PeriodUnit.all.mapM fun u => (u.name ++ "=" ++ ·) <$> Text.writeInteger (p.get u)).Succeeds ↔
      p.Writable := by
    rw [Except.succeeds_mapM_iff]
    constructor
    · intro h u
      have hu : u ∈ PeriodUnit.all := by cases u <;> decide
      exact Text.succeeds_writeInteger_iff.mp (Except.succeeds_map_iff.mp (h u hu))
    · intro h u _
      exact Except.succeeds_map_iff.mpr (Text.succeeds_writeInteger_iff.mpr (h u))
  exact Except.succeeds_map_iff.trans hfields

theorem succeeds_literal_atom_iff (h : v.isAtom = true) : v.literal.Succeeds ↔ v.Short := by
  cases v with
  | int n => exact Text.succeeds_writeInteger_iff
  | period p => exact succeeds_periodLiteral_iff
  | foreign x => cases hx : x.literal? <;> simp [literal, Short, hx, Except.Succeeds]
  | list _ | tuple _ | map _ => cases h
  | _ => exact iff_of_true (Except.succeeds_ok _) trivial

theorem succeeds_literals_iff {items : List Value}
    (h : ∀ item ∈ items, (item.literal.Succeeds ↔ ∀ x ∈ item.leaves, x.Short)) :
    (literals items).Succeeds ↔ ∀ item ∈ items, ∀ x ∈ item.leaves, x.Short := by
  rw [literals_eq_mapM, Except.succeeds_mapM_iff]
  exact forall₂_congr h

/-- Only an integer that is too long keeps a value from being quoted. -/
theorem succeeds_literal_iff_short : v.literal.Succeeds ↔ ∀ x ∈ v.leaves, x.Short := by
  induction v using Value.induction with
  | atom v hv =>
    rw [forall_leaves_atom hv]
    exact succeeds_literal_atom_iff hv
  | list items ih =>
    rw [forall_leaves_list]
    exact Except.succeeds_map_iff.trans (succeeds_literals_iff ih)
  | tuple items ih =>
    rw [forall_leaves_tuple]
    exact Except.succeeds_map_iff.trans (succeeds_literals_iff ih)
  | map es ih =>
    rw [forall_leaves_map]
    refine Except.succeeds_map_iff.trans ?_
    rw [entryLiterals_eq_mapM, Except.succeeds_mapM_iff]
    refine forall₂_congr fun e he => ?_
    rw [← (ih e he).1, ← (ih e he).2]
    exact Except.succeeds_bind_iff fun _ _ => Except.succeeds_map_iff

theorem succeeds_period_write_iff {p : Period} : p.write.Succeeds ↔ p.Writable := by
  have hblocks : (PeriodUnit.all.mapM p.writeBlock).Succeeds ↔ p.Writable := by
    rw [Except.succeeds_mapM_iff]
    constructor
    · intro h u
      have hu : u ∈ PeriodUnit.all := by cases u <;> decide
      have hblock := h u hu
      rw [Period.writeBlock] at hblock
      split at hblock
      · next hzero =>
        rw [hzero]
        decide
      · exact Text.succeeds_writeInteger_iff.mp (Except.succeeds_map_iff.mp hblock)
    · intro h u _
      exact ⟨_, Period.writeBlock_eq h u⟩
  exact Except.succeeds_map_iff.trans hblocks

/-- Plain text is there whenever a literal is. -/
theorem succeeds_display_iff_short : v.display.Succeeds ↔ ∀ x ∈ v.leaves, x.Short := by
  cases v with
  | text _ | span _ | path _ | moment _ => exact iff_of_true (Except.succeeds_ok _) (List.forall_mem_singleton.mpr trivial)
  | period p => exact succeeds_period_write_iff.trans (forall_leaves_atom (P := Short) (v := .period p) rfl).symm
  | _ => exact succeeds_literal_iff_short

theorem succeeds_display_iff (h : ∀ x ∈ v.leaves, x.isScalar = true) :
    v.display.Succeeds ↔ ∀ x ∈ v.leaves, x.Writable :=
  succeeds_display_iff_short.trans (forall₂_congr fun x hx => short_iff_writable (h x hx))

end Value

namespace Json

def Form : Value → Prop
  | .int n => Text.Writable n
  | .moment _ | .foreign _ => False
  | _ => True

instance : (v : Value) → Decidable (Form v)
  | .int n => inferInstanceAs (Decidable (Text.Writable n))
  | .moment _ | .foreign _ => inferInstanceAs (Decidable False)
  | .null | .bool _ | .float _ | .text _ | .list _ | .tuple _ | .map _ | .period _ | .span _ | .path _ =>
    inferInstanceAs (Decidable True)

variable {style : Style} {depth : Nat}

theorem writeItems_eq_map (items : List Value) : writeItems style depth items = items.map (write style depth) := by
  induction items with
  | nil => rfl
  | cons x xs ih => rw [writeItems, ih, List.map_cons]

theorem succeeds_allParts_iff {parts : List (Except Fault String)} :
    (allParts parts).Succeeds ↔ ∀ part ∈ parts, part.Succeeds := Except.succeeds_mapM_iff

/-- With texts for keys, whether a mapping can be written depends on its values alone. -/
theorem exists_writeEntries {es : Settings} (hk : ∀ e ∈ es, e.1.isText = true) : ∃ keyed,
    writeEntries style depth es = .ok keyed ∧
      ((∀ p ∈ keyed, p.2.Succeeds) ↔ ∀ e ∈ es, (write style depth e.2).Succeeds) := by
  induction es with
  | nil => exact ⟨[], rfl, by simp⟩
  | cons e es ih =>
    obtain ⟨hhead, htail⟩ := List.forall_mem_cons.mp hk
    obtain ⟨keyed, hkeyed, hiff⟩ := ih htail
    rcases e with ⟨key, value⟩
    cases key with
    | text name =>
      refine ⟨(name, (fun shown => text name ++ style.colon ++ shown) <$> write style depth value) :: keyed, ?_, ?_⟩
      · rw [writeEntries, hkeyed]
        rfl
      · rw [List.forall_mem_cons, List.forall_mem_cons, hiff, Except.succeeds_map_iff]
    | _ => cases hhead

theorem succeeds_write_scalar_iff {v : Value} (h : v.isScalar = true) : (write style depth v).Succeeds ↔ Form v := by
  cases v with
  | int n => exact succeeds_digits_iff.trans Text.succeeds_writeInteger_iff
  | moment _ | foreign _ => exact iff_of_false (Except.not_succeeds_error _) id
  | list _ | tuple _ | map _ | period _ | span _ | path _ => cases h
  | _ => exact iff_of_true (Except.succeeds_ok _) trivial

theorem succeeds_write_list_iff {items : List Value} :
    (write style depth (.list items)).Succeeds ↔ ∀ item ∈ items, (write style (depth + 1) item).Succeeds := by
  refine Except.succeeds_map_iff.trans ?_
  rw [succeeds_allParts_iff, writeItems_eq_map, List.forall_mem_map]

theorem succeeds_write_map_iff {es : Settings} (hk : ∀ e ∈ es, e.1.isText = true) :
    (write style depth (.map es)).Succeeds ↔ ∀ e ∈ es, (write style (depth + 1) e.2).Succeeds := by
  obtain ⟨keyed, hkeyed, hiff⟩ := @exists_writeEntries style (depth + 1) es hk
  rw [write, hkeyed, ← hiff]
  refine Except.succeeds_map_iff.trans ?_
  rw [succeeds_allParts_iff, List.forall_mem_map, sortEntries]
  simp only [List.mem_mergeSort]

theorem succeeds_write_iff {v : Value} (hk : ∀ k ∈ v.innerKeys, k.isText = true) (h : ∀ x ∈ v.leaves, x.isScalar = true) :
    (write style depth v).Succeeds ↔ ∀ x ∈ v.leaves, Form x := by
  induction v using Value.induction generalizing depth with
  | atom v hv =>
    rw [Value.forall_leaves_atom hv] at h ⊢
    exact succeeds_write_scalar_iff h
  | list items ih =>
    rw [Value.forall_innerKeys_list] at hk
    rw [Value.forall_leaves_list] at h ⊢
    rw [succeeds_write_list_iff]
    exact forall₂_congr fun x hx => ih x hx (hk x hx) (h x hx)
  | tuple items ih =>
    rw [Value.forall_innerKeys_tuple] at hk
    rw [Value.forall_leaves_tuple] at h ⊢
    exact succeeds_write_list_iff.trans (forall₂_congr fun x hx => ih x hx (hk x hx) (h x hx))
  | map es ih =>
    rw [Value.forall_innerKeys_map] at hk
    rw [Value.forall_leaves_map] at h ⊢
    rw [succeeds_write_map_iff fun e he => (hk e he).1]
    refine forall₂_congr fun e he => ?_
    have hform : ∀ x ∈ e.1.leaves, Form x := by
      have htext := (hk e he).1
      rw [Value.forall_leaves_atom (Value.isAtom_of_isScalar (Value.isScalar_of_isText htext))]
      cases hkey : e.1 with
      | text name => trivial
      | _ => rw [hkey] at htext; cases htext
    rw [(ih e he).2 (hk e he).2 (h e he).2]
    exact (and_iff_right hform).symm

end Json

end Stanza
