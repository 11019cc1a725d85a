import Mathlib.Data.List.Basic
import Stanza.Proofs.Value

/-! # The leaves of a value

Whether a value can be shown depends on what stands at its ends and on the keys of its mappings.
-/
namespace Stanza

namespace Value

def isAtom : Value → Bool
  | .list _ | .tuple _ | .map _ => false
  | .null | .bool _ | .int _ | .float _ | .text _ | .period _ | .span _ | .path _ | .moment _ | .foreign _ => true

theorem isAtom_of_isScalar {v : Value} (h : v.isScalar = true) : v.isAtom = true := by
  cases v with
  | list _ | tuple _ | map _ => cases h
  | _ => rfl

/-- Induction on what a value holds, keys included. -/
@[elab_as_elim]
theorem induction {motive : Value → Prop} (atom : ∀ v, v.isAtom = true → motive v)
    (list : ∀ items, (∀ x ∈ items, motive x) → motive (.list items))
    (tuple : ∀ items, (∀ x ∈ items, motive x) → motive (.tuple items))
    (map : ∀ es : Settings, (∀ e ∈ es, motive e.1 ∧ motive e.2) → motive (.map es)) (v : Value) : motive v := by
  refine @Value.rec motive (fun items => ∀ x ∈ items, motive x) (fun es => ∀ e ∈ es, motive e.1 ∧ motive e.2)
    (fun e => motive e.1 ∧ motive e.2) ?null ?bool ?int ?float ?text list tuple map ?period ?span ?path ?moment ?foreign ?nil
    ?cons ?none ?more ?entry v
  case nil => exact fun _ hx => absurd hx List.not_mem_nil
  case cons => exact fun _ _ hhead htail => List.forall_mem_cons.mpr ⟨hhead, htail⟩
  case none => exact fun _ he => absurd he List.not_mem_nil
  case more => exact fun _ _ hhead htail => List.forall_mem_cons.mpr ⟨hhead, htail⟩
  case entry => exact fun _ _ hk hv => ⟨hk, hv⟩
  all_goals intros
  all_goals exact atom _ rfl

mutual

/-- What is at the ends of a value, in its keys as well. -/
def leaves : Value → List Value
  | .list items | .tuple items => leavesOfItems items
  | .map entries => leavesOfEntries entries
  | value => [value]
termination_by structural value => value

def leavesOfItems : List Value → List Value
  | [] => []
  | item :: rest => item.leaves ++ leavesOfItems rest
termination_by structural items => items

def leavesOfEntries : List (Value × Value) → List Value
  | [] => []
  | (key, value) :: rest => key.leaves ++ value.leaves ++ leavesOfEntries rest
termination_by structural entries => entries

end

mutual

/-- The keys of a mapping and of the mappings in it. -/
def innerKeys : Value → List Value
  | .list items | .tuple items => innerKeysOfItems items
  | .map entries => innerKeysOfEntries entries
  | _ => []
termination_by structural value => value

def innerKeysOfItems : List Value → List Value
  | [] => []
  | item :: rest => item.innerKeys ++ innerKeysOfItems rest
termination_by structural items => items

def innerKeysOfEntries : List (Value × Value) → List Value
  | [] => []
  | (key, value) :: rest => key :: value.innerKeys ++ innerKeysOfEntries rest
termination_by structural entries => entries

end

mutual

def ends : Value → List Value
  | .list items | .tuple items => endsOfItems items
  | .map entries => endsOfEntries entries
  | value => [value]
termination_by structural value => value

def endsOfItems : List Value → List Value
  | [] => []
  | item :: rest => item.ends ++ endsOfItems rest
termination_by structural items => items

def endsOfEntries : List (Value × Value) → List Value
  | [] => []
  | (_, value) :: rest => value.ends ++ endsOfEntries rest
termination_by structural entries => entries

end

theorem leavesOfItems_eq_flatMap (items : List Value) : leavesOfItems items = items.flatMap leaves := by
  induction items with
  | nil => rfl
  | cons x xs ih => rw [leavesOfItems, ih, List.flatMap_cons]

theorem leavesOfEntries_eq_flatMap (es : Settings) : leavesOfEntries es = es.flatMap fun e => e.1.leaves ++ e.2.leaves := by
  induction es with
  | nil => rfl
  | cons e es ih => rw [leavesOfEntries, ih, List.flatMap_cons]

theorem innerKeysOfItems_eq_flatMap (items : List Value) : innerKeysOfItems items = items.flatMap innerKeys := by
  induction items with
  | nil => rfl
  | cons x xs ih => rw [innerKeysOfItems, ih, List.flatMap_cons]

theorem innerKeysOfEntries_eq_flatMap (es : Settings) :
    innerKeysOfEntries es = es.flatMap fun e => e.1 :: e.2.innerKeys := by
  induction es with
  | nil => rfl
  | cons e es ih => rw [innerKeysOfEntries, ih, List.flatMap_cons]

theorem endsOfItems_eq_flatMap (items : List Value) : endsOfItems items = items.flatMap ends := by
  induction items with
  | nil => rfl
  | cons x xs ih => rw [endsOfItems, ih, List.flatMap_cons]

theorem endsOfEntries_eq_flatMap (es : Settings) : endsOfEntries es = es.flatMap fun e => e.2.ends := by
  induction es with
  | nil => rfl
  | cons e es ih => rw [endsOfEntries, ih, List.flatMap_cons]

/-! ## Predicates on leaves and keys -/

variable {P : Value → Prop} {items : List Value} {es : Settings} {v : Value}

theorem forall_leaves_list : (∀ x ∈ (Value.list items).leaves, P x) ↔ ∀ item ∈ items, ∀ x ∈ item.leaves, P x := by
  rw [leaves, leavesOfItems_eq_flatMap]
  exact List.forall_mem_flatMap

theorem forall_leaves_tuple : (∀ x ∈ (Value.tuple items).leaves, P x) ↔ ∀ item ∈ items, ∀ x ∈ item.leaves, P x :=
  forall_leaves_list

theorem forall_leaves_map : (∀ x ∈ (Value.map es).leaves, P x) ↔
    ∀ e ∈ es, (∀ x ∈ e.1.leaves, P x) ∧ ∀ x ∈ e.2.leaves, P x := by
  rw [leaves, leavesOfEntries_eq_flatMap, List.forall_mem_flatMap]
  simp only [List.forall_mem_append]

theorem leaves_of_isAtom (h : v.isAtom = true) : v.leaves = [v] := by
  cases v with
  | list _ | tuple _ | map _ => cases h
  | _ => rfl

theorem forall_leaves_atom (h : v.isAtom = true) : (∀ x ∈ v.leaves, P x) ↔ P v := by
  rw [leaves_of_isAtom h]
  exact List.forall_mem_singleton

theorem forall_innerKeys_list : (∀ k ∈ (Value.list items).innerKeys, P k) ↔ ∀ item ∈ items, ∀ k ∈ item.innerKeys, P k := by
  rw [innerKeys, innerKeysOfItems_eq_flatMap]
  exact List.forall_mem_flatMap

theorem forall_innerKeys_tuple : (∀ k ∈ (Value.tuple items).innerKeys, P k) ↔ ∀ item ∈ items, ∀ k ∈ item.innerKeys, P k :=
  forall_innerKeys_list

theorem forall_innerKeys_map : (∀ k ∈ (Value.map es).innerKeys, P k) ↔ ∀ e ∈ es, P e.1 ∧ ∀ k ∈ e.2.innerKeys, P k := by
  rw [innerKeys, innerKeysOfEntries_eq_flatMap, List.forall_mem_flatMap]
  simp only [List.forall_mem_cons]

theorem innerKeys_of_isAtom (h : v.isAtom = true) : v.innerKeys = [] := by
  cases v with
  | list _ | tuple _ | map _ => cases h
  | _ => rfl

theorem forall_ends_list : (∀ x ∈ (Value.list items).ends, P x) ↔ ∀ item ∈ items, ∀ x ∈ item.ends, P x := by
  rw [ends, endsOfItems_eq_flatMap]
  exact List.forall_mem_flatMap

theorem forall_ends_map : (∀ x ∈ (Value.map es).ends, P x) ↔ ∀ e ∈ es, ∀ x ∈ e.2.ends, P x := by
  rw [ends, endsOfEntries_eq_flatMap]
  exact List.forall_mem_flatMap

theorem forall_ends_atom (h : v.isAtom = true) : (∀ x ∈ v.ends, P x) ↔ P v := by
  have hends : v.ends = [v] := by
    cases v with
    | list _ | tuple _ | map _ => cases h
    | _ => rfl
  rw [hends]
  exact List.forall_mem_singleton

theorem isAtom_of_mem_ends : ∀ x ∈ v.ends, x.isAtom = true := by
  induction v using Value.induction with
  | atom v hv => exact (forall_ends_atom hv).mpr hv
  | list items ih | tuple items ih => exact forall_ends_list.mpr ih
  | map es ih => exact forall_ends_map.mpr fun e he => (ih e he).2

/-- The ends of a key are ends of the mapping. -/
theorem forall_innerKeys_of_leaves (h : ∀ x ∈ v.leaves, P x) : ∀ k ∈ v.innerKeys, ∀ x ∈ k.leaves, P x := by
  induction v using Value.induction with
  | atom v hv =>
    rw [innerKeys_of_isAtom hv]
    exact fun _ hk => absurd hk List.not_mem_nil
  | list items ih | tuple items ih =>
    have hitems := forall_leaves_list.mp h
    exact forall_innerKeys_list.mpr fun x hx => ih x hx (hitems x hx)
  | map es ih =>
    rw [forall_leaves_map] at h
    exact forall_innerKeys_map.mpr fun e he => ⟨(h e he).1, (ih e he).2 (h e he).2⟩

/-! ## Mappings from pairs -/

theorem forall_leaves_ofPairs (h : ∀ x ∈ (Value.map es).leaves, P x) :
    ∀ x ∈ (Value.map (Settings.ofPairs es)).leaves, P x := by
  rw [forall_leaves_map] at h ⊢
  exact Settings.forall_mem_ofPairs (P := fun k => ∀ x ∈ k.leaves, P x) (Q := fun v => ∀ x ∈ v.leaves, P x) h

theorem forall_innerKeys_ofPairs (h : ∀ k ∈ (Value.map es).innerKeys, P k) :
    ∀ k ∈ (Value.map (Settings.ofPairs es)).innerKeys, P k := by
  rw [forall_innerKeys_map] at h ⊢
  exact Settings.forall_mem_ofPairs (Q := fun v => ∀ k ∈ v.innerKeys, P k) h

/-! ## Values of files -/

def Simple (v : Value) : Prop := ∀ x ∈ v.leaves, x.isScalar = true

theorem Simple.of_isScalar (h : v.isScalar = true) : v.Simple := (forall_leaves_atom (isAtom_of_isScalar h)).mpr h

theorem simple_list_iff : (Value.list items).Simple ↔ ∀ x ∈ items, x.Simple := forall_leaves_list

theorem simple_tuple_iff : (Value.tuple items).Simple ↔ ∀ x ∈ items, x.Simple := forall_leaves_tuple

theorem simple_map_iff : (Value.map es).Simple ↔ ∀ e ∈ es, e.1.Simple ∧ e.2.Simple := forall_leaves_map

theorem Raw.simple {isKey : Value → Bool} (hk : ∀ k, isKey k = true → k.isScalar = true) (h : v.Raw isKey) : v.Simple := by
  induction h with
  | list _ ih => exact simple_list_iff.mpr ih
  | map hkeys _ ih => exact simple_map_iff.mpr fun e he => ⟨.of_isScalar (hk _ (hkeys e he)), ih e he⟩
  | _ => exact .of_isScalar rfl

end Value

namespace Settings

variable {es : Settings}

def Simple (es : Settings) : Prop := ∀ e ∈ es, e.1.Simple ∧ e.2.Simple

theorem Simple.insert (h : es.Simple) {k v : Value} (hk : k.Simple) (hv : v.Simple) : (es.insert k v).Simple :=
  forall_mem_insert h hk hv

theorem Simple.overlay {under : Settings} (hu : under.Simple) (h : es.Simple) : (under.overlay es).Simple :=
  forall_mem_overlay hu h

end Settings

end Stanza
