import Stanza.Proofs.Settings

/-! # Values of files

Files hold no spans, periods or paths: those come from resolution. What TOML files hold has texts for its keys.
-/
namespace Stanza

inductive Value.Raw (isKey : Value → Bool) : Value → Prop
  | null : Raw isKey .null
  | bool (b : Bool) : Raw isKey (.bool b)
  | int (n : Int) : Raw isKey (.int n)
  | float (x : Float) : Raw isKey (.float x)
  | text (s : String) : Raw isKey (.text s)
  | moment (m : Moment) : Raw isKey (.moment m)
  | list {items : List Value} (h : ∀ x ∈ items, Raw isKey x) : Raw isKey (.list items)
  | map {entries : Settings} (hk : ∀ e ∈ entries, isKey e.1 = true) (hv : ∀ e ∈ entries, Raw isKey e.2) :
    Raw isKey (.map entries)

/-- A value of a file that is neither a list nor a tuple nor a mapping. -/
def Value.isScalar : Value → Bool
  | .null | .bool _ | .int _ | .float _ | .text _ | .moment _ | .foreign _ => true
  | .list _ | .tuple _ | .map _ | .period _ | .span _ | .path _ => false

theorem Value.isScalar_of_isText {v : Value} (h : v.isText = true) : v.isScalar = true := by
  cases v with
  | text s => rfl
  | _ => cases h

namespace Settings

variable {isKey : Value → Bool} {es : Settings}

def Raw (isKey : Value → Bool) (es : Settings) : Prop := ∀ e ∈ es, isKey e.1 = true ∧ e.2.Raw isKey

theorem raw_map_iff : (Value.map es).Raw isKey ↔ es.Raw isKey := by
  constructor
  · intro h e he
    cases h with
    | map hk hv => exact ⟨hk e he, hv e he⟩
  · intro h
    exact .map (fun e he => (h e he).1) fun e he => (h e he).2

/-- Insertion brings in no key and no value but its own. -/
theorem forall_mem_insert {P Q : Value → Prop} (h : ∀ e ∈ es, P e.1 ∧ Q e.2) {k v : Value} (hk : P k) (hv : Q v) :
    ∀ e ∈ es.insert k v, P e.1 ∧ Q e.2 := by
  induction es with
  | nil =>
    intro e he
    rw [List.mem_singleton.mp he]
    exact ⟨hk, hv⟩
  | cons e es ih =>
    obtain ⟨hhead, htail⟩ := List.forall_mem_cons.mp h
    rw [Settings.insert]
    split
    · exact List.forall_mem_cons.mpr ⟨⟨hhead.1, hv⟩, htail⟩
    · exact List.forall_mem_cons.mpr ⟨hhead, ih htail⟩

theorem forall_mem_overlay {P Q : Value → Prop} {under : Settings} (hu : ∀ e ∈ under, P e.1 ∧ Q e.2)
    (h : ∀ e ∈ es, P e.1 ∧ Q e.2) : ∀ e ∈ under.overlay es, P e.1 ∧ Q e.2 := by
  induction es generalizing under with
  | nil => exact hu
  | cons e es ih =>
    obtain ⟨hhead, htail⟩ := List.forall_mem_cons.mp h
    exact ih (forall_mem_insert hu hhead.1 hhead.2) htail

theorem forall_mem_ofPairs {P Q : Value → Prop} (h : ∀ e ∈ es, P e.1 ∧ Q e.2) : ∀ e ∈ ofPairs es, P e.1 ∧ Q e.2 :=
  forall_mem_overlay (fun _ he => absurd he List.not_mem_nil) h

theorem Raw.insert (h : es.Raw isKey) {k v : Value} (hk : isKey k = true) (hv : v.Raw isKey) : (es.insert k v).Raw isKey :=
  forall_mem_insert (P := fun k => isKey k = true) (Q := fun v => v.Raw isKey) h hk hv

end Settings

end Stanza
