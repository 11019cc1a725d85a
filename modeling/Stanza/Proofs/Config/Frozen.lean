import Stanza.Config.Frozen
import Stanza.Proofs.Settings

/-! # Freezing and thawing

Both go through a value item by item and leave keys alone. What has been frozen stays as it is when it is thawed
and frozen again.
-/
namespace Stanza

theorem freezeItems_eq_map (items : List Value) : freezeItems items = items.map Value.freeze := by
  induction items with
  | nil => rfl
  | cons x xs ih => rw [freezeItems, ih, List.map_cons]

theorem freezeEntries_eq_map (es : Settings) : freezeEntries es = es.map fun e => (e.1, e.2.freeze) := by
  induction es with
  | nil => rfl
  | cons e es ih => rw [freezeEntries, ih, List.map_cons]

theorem keys_freezeEntries (es : Settings) : Settings.keys (freezeEntries es) = Settings.keys es := by
  rw [freezeEntries_eq_map, Settings.keys_map]

theorem get?_freezeEntries (es : Settings) (name : String) :
    Settings.get? (freezeEntries es) name = (es.get? name).map Value.freeze := by
  rw [freezeEntries_eq_map, Settings.get?_map]

theorem get_freezeEntries (es : Settings) (name : String) :
    Settings.get (freezeEntries es) name = (es.get name).freeze := by
  rw [Settings.get, Settings.get, get?_freezeEntries]
  cases es.get? name <;> rfl

theorem sameMapping_freezeEntries {es fs : Settings} (h : es.SameMapping fs) :
    Settings.SameMapping (freezeEntries es) (freezeEntries fs) := by
  refine ⟨?_, by rw [keys_freezeEntries]; exact h.nodup⟩
  rw [freezeEntries_eq_map, freezeEntries_eq_map]
  exact h.perm.map _

theorem freeze_ofTexts (xs : List String) : (Value.ofTexts xs).freeze = .tuple (xs.map .text) := by
  rw [Value.ofTexts, Value.freeze, freezeItems_eq_map, List.map_map]
  rfl

theorem isNull_freeze (v : Value) : v.freeze.isNull = v.isNull := by
  cases v <;> rfl

/-! ## Thawing -/

theorem isNull_thaw (v : Value) : v.thaw.isNull = v.isNull := by
  cases v <;> rfl

theorem thawEntries_eq_map (es : Settings) : thawEntries es = es.map fun e => (e.1, e.2.thaw) := by
  induction es with
  | nil => rfl
  | cons e es ih => rw [thawEntries, ih, List.map_cons]

theorem get?_thawEntries (es : Settings) (name : String) :
    Settings.get? (thawEntries es) name = (es.get? name).map Value.thaw := by
  rw [thawEntries_eq_map, Settings.get?_map]

mutual

/-- What has been frozen is frozen again as it was. -/
theorem freeze_thaw_freeze : (v : Value) → v.freeze.thaw.freeze = v.freeze
  | .list items | .tuple items => congrArg Value.tuple (freezeItems_thawItems items)
  | .map entries => congrArg Value.map (freezeEntries_thawEntries entries)
  | .null | .bool _ | .int _ | .float _ | .text _ | .period _ | .span _ | .path _ | .moment _ | .foreign _ => rfl

theorem freezeItems_thawItems : (items : List Value) → freezeItems (thawItems (freezeItems items)) = freezeItems items
  | [] => rfl
  | x :: xs => congrArg₂ List.cons (freeze_thaw_freeze x) (freezeItems_thawItems xs)

theorem freezeEntries_thawEntries :
    (es : Settings) → freezeEntries (thawEntries (freezeEntries es)) = freezeEntries es
  | [] => rfl
  | (k, v) :: es => congrArg₂ List.cons (congrArg (k, ·) (freeze_thaw_freeze v)) (freezeEntries_thawEntries es)

end

/-- The same keys are there. -/
theorem has_thawEntries_freezeEntries (es : Settings) (name : String) :
    Settings.has (thawEntries (freezeEntries es)) name = es.has name := by
  rw [Settings.has_eq_isSome, get?_thawEntries, get?_freezeEntries, Option.isSome_map, Option.isSome_map,
    ← Settings.has_eq_isSome]

end Stanza
