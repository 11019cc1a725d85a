import Mathlib.Data.List.Induction
import Stanza.Proofs.Schema.Stages

/-! # Extended specifications

A specification is extended field by field: a field with a new name comes last, and one with a known name takes the
place of the old one. Some stages of a section go through the fields and others look them up by name; of an extended
specification both see the same declarations, however often a name has been given anew.
-/
namespace Stanza.Schema

namespace Spec

variable {α : Type} [Named α] {fields : List α} {field : α} {name : String}

theorem hasName_iff : hasName name field = true ↔ Named.name field = name := beq_iff_eq

/-! ## One more field -/

/-- A field with a new name comes last. -/
theorem put_of_not_mem (h : Named.name field ∉ fields.map Named.name) : put fields field = fields ++ [field] := by
  induction fields with
  | nil => rfl
  | cons f fields ih =>
    obtain ⟨hf, hr⟩ := not_or.mp (List.mem_cons.not.mp h)
    have hne : ¬ hasName (Named.name field) f = true := fun he => hf (hasName_iff.mp he).symm
    rw [put, if_neg hne, ih hr]
    rfl

/-- A field with a known name moves nothing. -/
theorem map_name_put_of_mem (h : Named.name field ∈ fields.map Named.name) :
    (put fields field).map Named.name = fields.map Named.name := by
  induction fields with
  | nil => cases h
  | cons f fields ih =>
    rw [put]
    split
    · next hf => rw [List.map_cons, List.map_cons, hasName_iff.mp hf]
    · next hf =>
      have hr : Named.name field ∈ fields.map Named.name :=
        (List.mem_cons.mp h).resolve_left fun he => hf (hasName_iff.mpr he.symm)
      rw [List.map_cons, List.map_cons, ih hr]

theorem map_name_put (fields : List α) (field : α) : (put fields field).map Named.name =
    if Named.name field ∈ fields.map Named.name then fields.map Named.name
    else fields.map Named.name ++ [Named.name field] := by
  split
  · next h => exact map_name_put_of_mem h
  · next h => rw [put_of_not_mem h, List.map_append, List.map_singleton]

theorem nodup_put (h : (fields.map Named.name).Nodup) (field : α) : ((put fields field).map Named.name).Nodup := by
  rw [map_name_put]
  split
  · exact h
  · next hm =>
    rw [← List.concat_eq_append, List.nodup_concat]
    exact ⟨hm, h⟩

/-- The field that was put last is found by its name, and the others by theirs as before. -/
theorem find?_put (fields : List α) (field : α) (name : String) :
    (put fields field).find? (hasName name) = if hasName name field then some field else fields.find? (hasName name) := by
  induction fields with
  | nil => rw [put, List.find?_cons, List.find?_nil]; cases hasName name field <;> rfl
  | cons f fields ih =>
    rw [put]
    split
    · next hf =>
      have hsame : hasName name f = hasName name field := congrArg (· == name) (hasName_iff.mp hf)
      rw [List.find?_cons, List.find?_cons, hsame]
      cases hasName name field <;> rfl
    · next hf =>
      rw [List.find?_cons, List.find?_cons, ih]
      cases hn : hasName name f with
      | false => rfl
      | true =>
        have hother : ¬ hasName name field = true :=
          fun he => hf (hasName_iff.mpr ((hasName_iff.mp hn).trans (hasName_iff.mp he).symm))
        exact (if_neg hother).symm

/-! ## The index -/

/-- The fields as they are found by name: each name where it came up first, with the last field that has it. -/
def index (spec : Spec α) : List α := spec.fields.foldl put []

theorem index_concat (fields : List α) (field : α) :
    (Spec.mk (fields ++ [field])).index = put (Spec.mk fields).index field := List.foldl_concat put [] field fields

theorem nodup_index (spec : Spec α) : (spec.index.map Named.name).Nodup := by
  obtain ⟨fields⟩ := spec
  induction fields using List.reverseRecOn with
  | nil => exact List.nodup_nil
  | append_singleton fields field ih =>
    rw [index_concat]
    exact nodup_put ih field

theorem names_concat (fields : List α) (field : α) : (Spec.mk (fields ++ [field])).names =
    if Named.name field ∈ (Spec.mk fields).names then (Spec.mk fields).names
    else (Spec.mk fields).names ++ [Named.name field] := by
  simp only [names, List.map_append, List.map_singleton, List.eraseDups_append, List.mem_eraseDups, List.removeAll,
    List.filter_singleton, List.contains_eq_mem]
  split
  · next h => simp [h]
  · next h => simp [h, List.eraseDups_cons]

theorem map_name_index (spec : Spec α) : spec.index.map Named.name = spec.names := by
  obtain ⟨fields⟩ := spec
  induction fields using List.reverseRecOn with
  | nil => rfl
  | append_singleton fields field ih => rw [index_concat, map_name_put, ih, names_concat]

/-- What the index has under a name is the last field with it. -/
theorem find?_index (spec : Spec α) (name : String) : spec.index.find? (hasName name) = spec.get? name := by
  obtain ⟨fields⟩ := spec
  induction fields using List.reverseRecOn with
  | nil => rfl
  | append_singleton fields field ih =>
    rw [index_concat, find?_put, ih, get?, get?, List.reverse_concat, List.find?_cons]
    cases hasName name field <;> rfl

/-- Fields with different names are their own index. -/
theorem index_of_nodup {spec : Spec α} (h : (spec.fields.map Named.name).Nodup) : spec.index = spec.fields := by
  obtain ⟨fields⟩ := spec
  induction fields using List.reverseRecOn with
  | nil => rfl
  | append_singleton fields field ih =>
    rw [List.map_append, List.map_singleton, ← List.concat_eq_append, List.nodup_concat] at h
    obtain ⟨hm, hr⟩ := h
    rw [index_concat, ih hr, put_of_not_mem hm]

theorem get?_eq_some_iff {spec : Spec α} (h : (spec.fields.map Named.name).Nodup) :
    spec.get? name = some field ↔ field ∈ spec.fields ∧ Named.name field = name := by
  constructor
  · exact get?_eq_some
  · rintro ⟨hmem, rfl⟩
    exact get?_of_mem h hmem

/-! ## Extension -/

variable (spec : Spec α) (extra : List α)

/-- The further fields go into the index of the old ones. -/
theorem extend_eq : spec.extend extra = ⟨extra.foldl put spec.index⟩ := congrArg Spec.mk List.foldl_append

theorem fields_extend : (spec.extend extra).fields = (Spec.mk (spec.fields ++ extra)).index := rfl

theorem nodup_extend : ((spec.extend extra).fields.map Named.name).Nodup := nodup_index _

theorem index_extend : (spec.extend extra).index = (spec.extend extra).fields := index_of_nodup (nodup_extend spec extra)

theorem extend_extend (more : List α) : (spec.extend extra).extend more = spec.extend (extra ++ more) := by
  calc (spec.extend extra).extend more
      = ⟨more.foldl put (spec.extend extra).fields⟩ := by rw [extend_eq, index_extend]
    _ = ⟨more.foldl put (extra.foldl put spec.index)⟩ := by rw [extend_eq]
    _ = spec.extend (extra ++ more) := by rw [extend_eq, List.foldl_append]

theorem get?_extend (name : String) : (spec.extend extra).get? name =
    (extra.filter (hasName name)).getLast?.or (spec.fields.filter (hasName name)).getLast? := by
  calc (spec.extend extra).get? name
      = (spec.extend extra).fields.find? (hasName name) := by rw [← find?_index, index_extend]
    _ = (Spec.mk (spec.fields ++ extra)).get? name := by rw [fields_extend, find?_index]
    _ = ((spec.fields ++ extra).filter (hasName name)).getLast? := by rw [get?, List.getLast?_filter]
    _ = _ := by rw [List.filter_append, List.getLast?_append]

end Spec

theorem mem_requiredNames_iff {spec : Spec Outgoing} {name : String} :
    name ∈ requiredNames spec ↔ ∃ field ∈ spec.fields, field.optional = false ∧ field.name = name := by
  rw [requiredNames, Spec.names, List.mem_eraseDups, List.mem_map]
  simp only [List.mem_filter, Bool.not_eq_true', and_assoc]
  rfl

/-- Where no name is given twice, what has to be there is what is found by its name and not optional. -/
theorem mem_requiredNames_iff_get? {spec : Spec Outgoing} (h : (spec.fields.map Named.name).Nodup) {name : String} :
    name ∈ requiredNames spec ↔ ∃ field, spec.get? name = some field ∧ field.optional = false := by
  rw [mem_requiredNames_iff]
  refine exists_congr fun field => ?_
  rw [Spec.get?_eq_some_iff h, and_assoc]
  exact and_congr_right fun _ => and_comm

/-- Fields that are added in two goes might as well be added in one. The fields of an extended specification have
different names, in the order in which the old fields and then the new ones bring them up, and they are their own index:
a name finds the last new field that has it, else the last old one, and that is the one field with this name. The names
that have to be there are those of found fields that are not optional. -/
theorem extend_indexed :
    (∀ {α : Type} [Named α] (spec : Spec α) (extra more : List α),
      (spec.extend extra).extend more = spec.extend (extra ++ more) ∧
      ((spec.extend extra).fields.map Named.name).Nodup ∧
      (spec.extend extra).fields.map Named.name = ((spec.fields ++ extra).map Named.name).eraseDups ∧
      (spec.extend extra).index = (spec.extend extra).fields ∧
      ∀ name, (spec.extend extra).get? name =
          (extra.filter (Spec.hasName name)).getLast?.or (spec.fields.filter (Spec.hasName name)).getLast? ∧
        ∀ field, (spec.extend extra).get? name = some field ↔
          field ∈ (spec.extend extra).fields ∧ Named.name field = name) ∧
    ∀ (spec : Spec Outgoing) (extra : List Outgoing) (name : String),
      name ∈ requiredNames (spec.extend extra) ↔
        ∃ field, (spec.extend extra).get? name = some field ∧ field.optional = false := by
  constructor
  · intro α _ spec extra more
    refine ⟨spec.extend_extend extra more, spec.nodup_extend extra, ?_, spec.index_extend extra, fun name => ?_⟩
    · exact Spec.map_name_index _
    · exact ⟨spec.get?_extend extra name, fun field => Spec.get?_eq_some_iff (spec.nodup_extend extra)⟩
  · intro spec extra name
    exact mem_requiredNames_iff_get? (spec.nodup_extend extra)

/-- A name that is declared again as optional stays required until the specification is extended. -/
example :
    let spec : Spec Outgoing := ⟨[{ name := "user", kind := .text }, { name := "user", kind := .text, optional := true }]⟩
    requiredNames spec = ["user"] ∧ requiredNames (spec.extend []) = [] := by decide

end Stanza.Schema
