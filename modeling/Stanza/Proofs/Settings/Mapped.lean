import Stanza.Proofs.Settings

/-! # Settings with every value changed

A change of the values that looks at nothing of a key but which text it is can be made before or after entries are
looked up, set or laid over each other.
-/
namespace Stanza

/-- Two keys that are the same are one text or no texts at all. -/
theorem Value.same_cases {k l : Value} (h : k.same l = true) : k = l ∨ (k.isText = false ∧ l.isText = false) := by
  cases k with
  | text s => exact .inl (Value.text_same_iff.mp h).symm
  | _ =>
    cases l with
    | text t => cases Value.same_text_iff.mp h
    | _ => exact .inr ⟨rfl, rfl⟩

namespace Settings

def mapValues (g : Value → Value → Value) (es : Settings) : Settings := es.map fun e => (e.1, g e.1 e.2)

def ByText (g : Value → Value → Value) : Prop := ∀ k l, k.isText = false → l.isText = false → g k = g l

variable {g : Value → Value → Value} {es fs : Settings}

theorem ByText.eq_of_same (hg : ByText g) {k l : Value} (h : k.same l = true) : g k = g l := by
  rcases Value.same_cases h with rfl | ⟨hk, hl⟩
  · rfl
  · exact hg k l hk hl

@[simp] theorem mapValues_nil (g : Value → Value → Value) : mapValues g [] = [] := rfl

@[simp] theorem mapValues_cons (g : Value → Value → Value) (e : Value × Value) (es : Settings) :
    mapValues g (e :: es) = (e.1, g e.1 e.2) :: mapValues g es := rfl

theorem mapValues_append (g : Value → Value → Value) (es fs : Settings) :
    mapValues g (es ++ fs) = mapValues g es ++ mapValues g fs := List.map_append

theorem keys_mapValues (g : Value → Value → Value) (es : Settings) : keys (mapValues g es) = keys es := by
  rw [keys, mapValues, List.map_map, keys]
  rfl

theorem mapValues_mapValues (f g : Value → Value → Value) (es : Settings) :
    mapValues f (mapValues g es) = mapValues (fun k v => f k (g k v)) es := by
  rw [mapValues, mapValues, List.map_map]
  rfl

theorem hasName_congr (name : String) (k v w : Value) : hasName name (k, v) = hasName name (k, w) := by
  rw [hasName_eq_same, hasName_eq_same]

theorem get?_mapValues (g : Value → Value → Value) (es : Settings) (name : String) :
    (mapValues g es).get? name = (es.get? name).map (g (.text name)) := by
  induction es with
  | nil => rfl
  | cons e es ih =>
    rw [mapValues_cons, get?_cons, get?_cons, hasName_congr name e.1 _ e.2, ih]
    split
    · next h => rw [hasName_iff.mp h, Option.map_some]
    · rfl

theorem has_mapValues (g : Value → Value → Value) (es : Settings) (name : String) :
    (mapValues g es).has name = es.has name := by
  rw [has_eq_isSome, has_eq_isSome, get?_mapValues, Option.isSome_map]

/-- What is left under keys and values that the change does not touch. -/
theorem filter_mapValues (p : Value × Value → Bool) (h : ∀ k v, p (k, g k v) = p (k, v)) (es : Settings) :
    (mapValues g es).filter p = mapValues g (es.filter p) := by
  rw [mapValues, mapValues, List.filter_map]
  have hp : (p ∘ fun e => (e.1, g e.1 e.2)) = p := by
    funext e
    exact h e.1 e.2
  rw [hp]

theorem erase_mapValues (g : Value → Value → Value) (es : Settings) (name : String) :
    (mapValues g es).erase name = mapValues g (es.erase name) := by
  refine filter_mapValues _ (fun k v => ?_) es
  rw [hasName_congr name k _ v]

theorem insert_mapValues (hg : ByText g) (es : Settings) (k v : Value) :
    (mapValues g es).insert k (g k v) = mapValues g (es.insert k v) := by
  induction es with
  | nil => rfl
  | cons e es ih =>
    rw [mapValues_cons, insert, insert]
    split
    · next h => rw [mapValues_cons, hg.eq_of_same h]
    · rw [ih, mapValues_cons]

theorem set_mapValues (hg : ByText g) (es : Settings) (name : String) (v : Value) :
    (mapValues g es).set name (g (.text name) v) = mapValues g (es.set name v) :=
  insert_mapValues hg es (.text name) v

theorem setDefault_mapValues (hg : ByText g) (es : Settings) (name : String) (v : Value) :
    (mapValues g es).setDefault name (g (.text name) v) = mapValues g (es.setDefault name v) := by
  rw [setDefault, setDefault, has_mapValues, set_mapValues hg]
  split <;> rfl

theorem overlay_mapValues (hg : ByText g) (under above : Settings) :
    (mapValues g under).overlay (mapValues g above) = mapValues g (under.overlay above) := by
  induction above generalizing under with
  | nil => rfl
  | cons e above ih =>
    have hstep : ∀ (es : Settings) (e : Value × Value) (fs : Settings),
        es.overlay (e :: fs) = (es.insert e.1 e.2).overlay fs := fun _ _ _ => rfl
    rw [mapValues_cons, hstep, hstep, insert_mapValues hg, ih]

theorem ofPairs_mapValues (hg : ByText g) (es : Settings) : ofPairs (mapValues g es) = mapValues g (ofPairs es) :=
  overlay_mapValues hg [] es

end Settings

end Stanza
