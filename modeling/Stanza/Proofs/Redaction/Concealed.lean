import Stanza.Proofs.Config.Frozen
import Stanza.Proofs.Settings.Mapped
import Stanza.Redaction

/-! # Values without their secrets

Two values are alike if they differ in texts under keys that name secrets, which is so when they are equal once these
texts are hidden. Hiding can be done before or after freezing and thawing, and redaction does not notice it.
-/
namespace Stanza.Redaction

/-! ## Alike values -/

/-- Settings of a section that are the same or two secrets. -/
inductive AlikeSetting : Value × Value → Value × Value → Prop
  | same (e : Value × Value) : AlikeSetting e e
  | secret (key s t : String) (h : isSensitive key = true) : AlikeSetting (.text key, .text s) (.text key, .text t)

mutual

/-- Values that differ in secrets at some depth. -/
inductive Alike : Value → Value → Prop
  | same (v : Value) : Alike v v
  | list {xs ys : List Value} (h : List.Forall₂ Alike xs ys) : Alike (.list xs) (.list ys)
  | tuple {xs ys : List Value} (h : List.Forall₂ Alike xs ys) : Alike (.tuple xs) (.tuple ys)
  | map {es fs : List (Value × Value)} (h : List.Forall₂ AlikeEntry es fs) : Alike (.map es) (.map fs)

inductive AlikeEntry : Value × Value → Value × Value → Prop
  | value (key : Value) {v w : Value} (h : Alike v w) : AlikeEntry (key, v) (key, w)
  | secret (key s t : String) (h : isSensitive key = true) : AlikeEntry (.text key, .text s) (.text key, .text t)

end

/-! ## Hiding -/

def concealUnder (key value : Value) : Value :=
  if isSensitiveKey key && value.isText then .text mark else value

/-- Settings without the secrets directly among them. -/
def conceal (es : Settings) : Settings := es.mapValues concealUnder

def concealContents : Value → Value
  | .map entries => .map (conceal entries)
  | value => value

mutual

def hide : Value → Value
  | .list items => .list (hideItems items)
  | .tuple items => .tuple (hideItems items)
  | .map entries => .map (hideEntries entries)
  | value => value
termination_by structural x => x

def hideItems : List Value → List Value
  | [] => []
  | x :: xs => hide x :: hideItems xs
termination_by structural xs => xs

def hideEntries : List (Value × Value) → List (Value × Value)
  | [] => []
  | (key, value) :: rest =>
    (key, if isSensitiveKey key && value.isText then .text mark else hide value) :: hideEntries rest
termination_by structural es => es

end

theorem isSensitiveKey_of_not_text {k : Value} (h : k.isText = false) : isSensitiveKey k = false := by
  cases k with
  | text s => cases h
  | _ => rfl

theorem exists_name_of_sensitive {k : Value} (h : isSensitiveKey k = true) :
    ∃ name, k = .text name ∧ isSensitive name = true := by
  cases k with
  | text name => exact ⟨name, rfl, h⟩
  | _ => cases h

theorem byText_concealUnder : Settings.ByText concealUnder := by
  intro k l hk hl
  funext v
  rw [concealUnder, concealUnder, isSensitiveKey_of_not_text hk, isSensitiveKey_of_not_text hl]

theorem concealUnder_of_not_sensitive {key : String} (h : isSensitive key = false) (v : Value) :
    concealUnder (.text key) v = v := by
  rw [concealUnder, isSensitiveKey, h]
  rfl

theorem concealUnder_text {key : String} (h : isSensitive key = true) (s : String) :
    concealUnder (.text key) (.text s) = .text mark := by
  rw [concealUnder, isSensitiveKey, h]
  rfl

theorem concealUnder_of_not_text (k : Value) {v : Value} (h : v.isText = false) : concealUnder k v = v := by
  rw [concealUnder, h, Bool.and_false]
  rfl

/-- Whatever holds of texts in general or is the same for the mark holds of hidden values. -/
theorem concealUnder_cases (k v : Value) :
    concealUnder k v = v ∨ (isSensitiveKey k = true ∧ ∃ s, v = .text s ∧ concealUnder k v = .text mark) := by
  cases hk : isSensitiveKey k with
  | false =>
    rw [concealUnder, hk]
    exact .inl rfl
  | true =>
    cases v with
    | text s => exact .inr ⟨rfl, s, rfl, by rw [concealUnder, hk]; rfl⟩
    | _ => exact .inl (concealUnder_of_not_text k rfl)

theorem isText_concealUnder (k v : Value) : (concealUnder k v).isText = v.isText := by
  rcases concealUnder_cases k v with h | ⟨_, s, rfl, h⟩
  · rw [h]
  · rw [h]
    rfl

theorem isMap_concealUnder (k v : Value) : (concealUnder k v).isMap = v.isMap := by
  rcases concealUnder_cases k v with h | ⟨_, s, rfl, h⟩
  · rw [h]
  · rw [h]
    rfl

theorem isNull_concealUnder (k v : Value) : (concealUnder k v).isNull = v.isNull := by
  rcases concealUnder_cases k v with h | ⟨_, s, rfl, h⟩
  · rw [h]
  · rw [h]
    rfl

theorem concealUnder_concealUnder (k v : Value) : concealUnder k (concealUnder k v) = concealUnder k v := by
  rw [concealUnder, isText_concealUnder]
  split
  · next h => rw [concealUnder, if_pos h]
  · rfl

theorem conceal_conceal (es : Settings) : conceal (conceal es) = conceal es := by
  rw [conceal, conceal, Settings.mapValues_mapValues]
  exact congrArg (Settings.mapValues · es) (funext₂ concealUnder_concealUnder)

theorem keys_conceal (es : Settings) : (conceal es).keys = es.keys := Settings.keys_mapValues _ _

theorem has_conceal (es : Settings) (name : String) : (conceal es).has name = es.has name :=
  Settings.has_mapValues _ _ _

theorem get?_conceal_eq (es : Settings) (name : String) :
    (conceal es).get? name = (es.get? name).map (concealUnder (.text name)) :=
  Settings.get?_mapValues _ _ _

theorem get?_conceal {name : String} (h : isSensitive name = false) (es : Settings) :
    (conceal es).get? name = es.get? name := by
  rw [get?_conceal_eq]
  cases es.get? name with
  | none => rfl
  | some v => rw [Option.map_some, concealUnder_of_not_sensitive h]

theorem get_conceal {name : String} (h : isSensitive name = false) (es : Settings) :
    (conceal es).get name = es.get name := by
  rw [Settings.get, Settings.get, get?_conceal h]

theorem get_conceal_eq (es : Settings) (name : String) :
    (conceal es).get name = concealUnder (.text name) (es.get name) := by
  rw [Settings.get, Settings.get, get?_conceal_eq]
  cases es.get? name with
  | none => exact (concealUnder_of_not_text _ rfl).symm
  | some v => rw [Option.map_some, Option.getD_some, Option.getD_some]

theorem set_conceal (es : Settings) (name : String) (v : Value) :
    (conceal es).set name (concealUnder (.text name) v) = conceal (es.set name v) :=
  Settings.set_mapValues byText_concealUnder es name v

theorem set_conceal_of_not_sensitive {name : String} (h : isSensitive name = false) (es : Settings) (v : Value) :
    (conceal es).set name v = conceal (es.set name v) := by
  rw [← set_conceal, concealUnder_of_not_sensitive h]

theorem filter_conceal (p : Value × Value → Bool) (h : ∀ k v, p (k, concealUnder k v) = p (k, v)) (es : Settings) :
    (conceal es).filter p = conceal (es.filter p) :=
  Settings.filter_mapValues p h es

/-! ## Hiding at any depth -/

def hideUnder (key value : Value) : Value := if isSensitiveKey key && value.isText then .text mark else hide value

theorem hideUnder_map (k : Value) (es : Settings) : hideUnder k (.map es) = .map (hideEntries es) := by
  have htext : (Value.map es).isText = false := rfl
  rw [hideUnder, htext, Bool.and_false]
  rfl

theorem hideEntries_eq_mapValues (es : Settings) : hideEntries es = es.mapValues hideUnder := by
  induction es with
  | nil => rfl
  | cons e es ih => rw [hideEntries, ih, Settings.mapValues_cons, hideUnder]

theorem byText_hideUnder : Settings.ByText hideUnder := by
  intro k l hk hl
  funext v
  rw [hideUnder, hideUnder, isSensitiveKey_of_not_text hk, isSensitiveKey_of_not_text hl]

/-- What is hidden directly is hidden at any depth. -/
theorem hideEntries_conceal (es : Settings) : hideEntries (conceal es) = hideEntries es := by
  rw [hideEntries_eq_mapValues, conceal, Settings.mapValues_mapValues, hideEntries_eq_mapValues]
  refine congrArg (Settings.mapValues · es) (funext₂ fun k v => ?_)
  rw [hideUnder, isText_concealUnder, hideUnder]
  split
  · rfl
  · next h => rw [concealUnder, if_neg h]

theorem isText_hide (v : Value) : (hide v).isText = v.isText := by
  cases v <;> rfl

mutual

theorem hide_hide : (v : Value) → hide (hide v) = hide v
  | .list items => congrArg Value.list (hideItems_hideItems items)
  | .tuple items => congrArg Value.tuple (hideItems_hideItems items)
  | .map entries => congrArg Value.map (hideEntries_hideEntries entries)
  | .null | .bool _ | .int _ | .float _ | .text _ | .period _ | .span _ | .path _ | .moment _ | .foreign _ => rfl

theorem hideItems_hideItems : (items : List Value) → hideItems (hideItems items) = hideItems items
  | [] => rfl
  | x :: xs => congrArg₂ List.cons (hide_hide x) (hideItems_hideItems xs)

theorem hideEntries_hideEntries : (es : Settings) → hideEntries (hideEntries es) = hideEntries es
  | [] => rfl
  | (k, v) :: es => by
    refine congrArg₂ List.cons (congrArg (k, ·) ?_) (hideEntries_hideEntries es)
    cases hk : isSensitiveKey k && v.isText with
    | true =>
      rw [if_pos rfl, (Bool.and_eq_true_iff.mp hk).1]
      rfl
    | false =>
      rw [if_neg Bool.false_ne_true, isText_hide, hk]
      exact hide_hide v

end

/-! ## Alike values are equal without their secrets -/

theorem conceal_eq_of_alike {es fs : Settings} (h : List.Forall₂ AlikeSetting es fs) : conceal es = conceal fs := by
  induction h with
  | nil => rfl
  | cons he _ ih =>
    refine congrArg₂ List.cons ?_ ih
    cases he with
    | same => rfl
    | secret key s t hk =>
      exact congrArg (Value.text key, ·) ((concealUnder_text hk s).trans (concealUnder_text hk t).symm)

mutual

theorem hide_eq_of_alike : (v : Value) → ∀ w, Alike v w → hide v = hide w
  | .list xs => by
    intro w h
    cases h with
    | same => rfl
    | list h => exact congrArg Value.list (hideItems_eq_of_alike xs _ h)
  | .tuple xs => by
    intro w h
    cases h with
    | same => rfl
    | tuple h => exact congrArg Value.tuple (hideItems_eq_of_alike xs _ h)
  | .map es => by
    intro w h
    cases h with
    | same => rfl
    | map h => exact congrArg Value.map (hideEntries_eq_of_alike es _ h)
  | .null | .bool _ | .int _ | .float _ | .text _ | .period _ | .span _ | .path _ | .moment _ | .foreign _ => by
    intro w h
    cases h
    rfl

theorem hideItems_eq_of_alike : (xs : List Value) → ∀ ys, List.Forall₂ Alike xs ys → hideItems xs = hideItems ys
  | [] => by
    intro ys h
    cases h
    rfl
  | x :: xs => by
    intro ys h
    cases h with
    | cons hx hs => exact congrArg₂ List.cons (hide_eq_of_alike x _ hx) (hideItems_eq_of_alike xs _ hs)

theorem hideEntries_eq_of_alike :
    (es : List (Value × Value)) → ∀ fs, List.Forall₂ AlikeEntry es fs → hideEntries es = hideEntries fs
  | [] => by
    intro fs h
    cases h
    rfl
  | (k, v) :: es => by
    intro fs h
    cases h with
    | cons he hs =>
      refine congrArg₂ List.cons (Prod.ext ?_ ?_) (hideEntries_eq_of_alike es _ hs)
      · cases he <;> rfl
      · cases he with
        | @value _ _ w hv =>
          have hhide := hide_eq_of_alike v w hv
          have htext : v.isText = w.isText := by rw [← isText_hide v, hhide, isText_hide]
          dsimp only
          rw [htext, hhide]
        | secret key s t hk =>
          dsimp only
          rw [isSensitiveKey, hk]
          rfl

end

/-! ## Freezing and thawing -/

theorem freezeEntries_conceal (es : Settings) : freezeEntries (conceal es) = conceal (freezeEntries es) := by
  have hfreeze : ∀ k v : Value, (concealUnder k v).freeze = concealUnder k v.freeze := by
    intro k v
    cases v with
    | text s =>
      change (concealUnder k (.text s)).freeze = concealUnder k (.text s)
      rcases concealUnder_cases k (.text s) with h | ⟨_, _, _, h⟩ <;> rw [h] <;> rfl
    | _ => rw [concealUnder_of_not_text k rfl, concealUnder_of_not_text k rfl]
  induction es with
  | nil => rfl
  | cons e es ih => exact congrArg₂ List.cons (congrArg (e.1, ·) (hfreeze e.1 e.2)) ih

mutual

theorem freeze_hide : (v : Value) → (hide v).freeze = hide v.freeze
  | .list items | .tuple items => congrArg Value.tuple (freezeItems_hideItems items)
  | .map entries => congrArg Value.map (freezeEntries_hideEntries entries)
  | .null | .bool _ | .int _ | .float _ | .text _ | .period _ | .span _ | .path _ | .moment _ | .foreign _ => rfl

theorem freezeItems_hideItems : (items : List Value) → freezeItems (hideItems items) = hideItems (freezeItems items)
  | [] => rfl
  | x :: xs => congrArg₂ List.cons (freeze_hide x) (freezeItems_hideItems xs)

theorem freezeEntries_hideEntries : (es : Settings) → freezeEntries (hideEntries es) = hideEntries (freezeEntries es)
  | [] => rfl
  | (k, v) :: es => by
    refine congrArg₂ List.cons (congrArg (k, ·) ?_) (freezeEntries_hideEntries es)
    have htext : v.freeze.isText = v.isText := by cases v <;> rfl
    rw [htext]
    split
    · rfl
    · exact freeze_hide v

end

mutual

theorem thaw_hide : (v : Value) → (hide v).thaw = hide v.thaw
  | .tuple items => congrArg Value.list (thawItems_hideItems items)
  | .map entries => congrArg Value.map (thawEntries_hideEntries entries)
  | .list _ | .null | .bool _ | .int _ | .float _ | .text _ | .period _ | .span _ | .path _ | .moment _ | .foreign _ => rfl

theorem thawItems_hideItems : (items : List Value) → thawItems (hideItems items) = hideItems (thawItems items)
  | [] => rfl
  | x :: xs => congrArg₂ List.cons (thaw_hide x) (thawItems_hideItems xs)

theorem thawEntries_hideEntries : (es : Settings) → thawEntries (hideEntries es) = hideEntries (thawEntries es)
  | [] => rfl
  | (k, v) :: es => by
    refine congrArg₂ List.cons (congrArg (k, ·) ?_) (thawEntries_hideEntries es)
    have htext : v.thaw.isText = v.isText := by cases v <;> rfl
    rw [htext]
    split
    · rfl
    · exact thaw_hide v

end

/-! ## Redaction -/

mutual

/-- Redaction hides what is hidden already. -/
theorem redactValue_hide : (v : Value) → redactValue (hide v) = redactValue v
  | .list items | .tuple items => congrArg Value.list (redactItems_hideItems items)
  | .map entries => congrArg Value.map (redactEntries_hideEntries entries)
  | .null | .bool _ | .int _ | .float _ | .text _ | .period _ | .span _ | .path _ | .moment _ | .foreign _ => rfl

theorem redactItems_hideItems : (items : List Value) → redactItems (hideItems items) = redactItems items
  | [] => rfl
  | x :: xs => congrArg₂ List.cons (redactValue_hide x) (redactItems_hideItems xs)

theorem redactEntries_hideEntries : (es : Settings) → redactEntries (hideEntries es) = redactEntries es
  | [] => rfl
  | (k, v) :: es => by
    refine congrArg₂ List.cons (congrArg (k, ·) ?_) (redactEntries_hideEntries es)
    cases hk : isSensitiveKey k with
    | false => exact redactValue_hide v
    | true =>
      cases v with
      | text s => rfl
      | map es => exact redactValue_hide (.map es)
      | _ => rfl

end

theorem redactEntries_conceal (es : Settings) : redactEntries (conceal es) = redactEntries es := by
  rw [← redactEntries_hideEntries, hideEntries_conceal, redactEntries_hideEntries]

end Stanza.Redaction
