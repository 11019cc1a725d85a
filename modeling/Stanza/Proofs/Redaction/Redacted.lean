import Stanza.Proofs.Logged
import Stanza.Proofs.Redaction.Concealed
import Stanza.Proofs.Value.Leaves

/-! # What redaction leaves of a value

Redaction keeps every key and every item in its place and hides what is under a key that names a secret, unless that is
a mapping. Once hidden it stays hidden, and nothing tells what was there.
-/
namespace Stanza.Redaction

/-! ## Item by item -/

theorem redactItems_eq_map (items : List Value) : redactItems items = items.map redactValue := by
  induction items with
  | nil => rfl
  | cons x xs ih => rw [redactItems, ih, List.map_cons]

def shade (key value : Value) : Value := if isSensitiveKey key && !value.isMap then .text mark else value

theorem isMap_redactValue (v : Value) : (redactValue v).isMap = v.isMap := by
  cases v <;> rfl

theorem redactEntries_eq_mapValues (es : Settings) :
    redactEntries es = es.mapValues fun k v => shade k (redactValue v) := by
  induction es with
  | nil => rfl
  | cons e es ih => rw [redactEntries, ih, Settings.mapValues_cons, shade, isMap_redactValue]

def redactEntry (e : Value × Value) : Value × Value := (e.1, shade e.1 (redactValue e.2))

theorem redactEntries_eq_map (es : Settings) : redactEntries es = es.map redactEntry := redactEntries_eq_mapValues es

theorem redactEntry_map (k : Value) (s : Settings) : redactEntry (k, .map s) = (k, .map (redactEntries s)) := by
  have hmap : (redactValue (.map s)).isMap = true := rfl
  rw [redactEntry, shade, hmap, Bool.not_true, Bool.and_false]
  rfl

theorem redactEntry_cases (e : Value × Value) :
    redactEntry e = (e.1, .text mark) ∨ redactEntry e = (e.1, redactValue e.2) := by
  rw [redactEntry, shade]
  split
  · exact .inl rfl
  · exact .inr rfl

theorem redactEntries_ofPairs (es : Settings) :
    redactEntries (Settings.ofPairs es) = Settings.ofPairs (redactEntries es) := by
  have htext : Settings.ByText fun k v => shade k (redactValue v) := by
    intro k l hk hl
    funext v
    simp only [shade, isSensitiveKey_of_not_text hk, isSensitiveKey_of_not_text hl]
  rw [redactEntries_eq_mapValues, redactEntries_eq_mapValues, Settings.ofPairs_mapValues htext]

variable {v w : Value}

theorem redactValue_of_isAtom (h : v.isAtom = true) : redactValue v = v := by
  cases v with
  | list _ | tuple _ | map _ => cases h
  | _ => rfl

theorem redactEntry_of_secret {name : String} (hk : isSensitive name = true) (hv : v.isMap = false) :
    redactEntry (.text name, v) = (.text name, .text mark) := by
  rw [redactEntry, shade, isSensitiveKey, hk, isMap_redactValue, hv]
  rfl

theorem redactEntry_of_shown {k : Value} (h : isSensitiveKey k = true → v.isMap = true) :
    redactEntry (k, v) = (k, redactValue v) := by
  have hshown : (isSensitiveKey k && !(redactValue v).isMap) = false := by
    rw [isMap_redactValue]
    cases hk : isSensitiveKey k with
    | false => rfl
    | true => rw [h hk]; rfl
  rw [redactEntry, shade, hshown]
  rfl

/-! ## Values and what is left of them -/

mutual

/-- A value and the same value without its secrets. -/
inductive Redacted : Value → Value → Prop
  | atom {v : Value} (h : v.isAtom = true) : Redacted v v
  | list {xs ys : List Value} (h : List.Forall₂ Redacted xs ys) : Redacted (.list xs) (.list ys)
  | tuple {xs ys : List Value} (h : List.Forall₂ Redacted xs ys) : Redacted (.tuple xs) (.list ys)
  | map {es fs : List (Value × Value)} (h : List.Forall₂ RedactedEntry es fs) : Redacted (.map es) (.map fs)

/-- A mapping under a key that names a secret is gone through like any other value. -/
inductive RedactedEntry : Value × Value → Value × Value → Prop
  | hidden (name : String) (v : Value) (hk : isSensitive name = true) (hv : v.isMap = false) :
    RedactedEntry (.text name, v) (.text name, .text mark)
  | shown {key v w : Value} (hk : isSensitiveKey key = true → v.isMap = true) (h : Redacted v w) :
    RedactedEntry (key, v) (key, w)

end

theorem redactedEntry_redactEntry {e : Value × Value} (h : Redacted e.2 (redactValue e.2)) :
    RedactedEntry e (redactEntry e) := by
  rcases e with ⟨k, v⟩
  by_cases hk : isSensitiveKey k = true ∧ v.isMap = false
  · obtain ⟨name, rfl, hname⟩ := exists_name_of_sensitive hk.1
    rw [redactEntry_of_secret hname hk.2]
    exact .hidden name v hname hk.2
  · have hshown : isSensitiveKey k = true → v.isMap = true := fun hs => by simpa [hs] using hk
    rw [redactEntry_of_shown hshown]
    exact .shown hshown h

theorem redacted_redactValue (v : Value) : Redacted v (redactValue v) := by
  induction v using Value.induction with
  | atom v hv =>
    rw [redactValue_of_isAtom hv]
    exact .atom hv
  | list items ih =>
    rw [redactValue, redactItems_eq_map]
    exact .list (List.forall₂_map_right_iff.mpr (List.forall₂_same.mpr ih))
  | tuple items ih =>
    rw [redactValue, redactItems_eq_map]
    exact .tuple (List.forall₂_map_right_iff.mpr (List.forall₂_same.mpr ih))
  | map es ih =>
    rw [redactValue, redactEntries_eq_map]
    refine .map (List.forall₂_map_right_iff.mpr (List.forall₂_same.mpr fun e he => ?_))
    exact redactedEntry_redactEntry (ih e he).2

/-- Nothing else is left of a value. -/
theorem Redacted.redactValue_eq (h : Redacted v w) : redactValue v = w := by
  induction v using Value.induction generalizing w with
  | atom v hv =>
    cases h with
    | atom => exact redactValue_of_isAtom hv
    | list | tuple | map => cases hv
  | list items ih =>
    cases h with
    | atom hv => cases hv
    | list h => rw [redactValue, redactItems_eq_map, h.map_eq fun x hx _ hr => ih x hx hr]
  | tuple items ih =>
    cases h with
    | atom hv => cases hv
    | tuple h => rw [redactValue, redactItems_eq_map, h.map_eq fun x hx _ hr => ih x hx hr]
  | map es ih =>
    cases h with
    | atom hv => cases hv
    | map h =>
      rw [redactValue, redactEntries_eq_map, h.map_eq]
      intro e he f hf
      cases hf with
      | hidden name v hk hv => exact redactEntry_of_secret hk hv
      | shown hk hr => rw [redactEntry_of_shown hk, (ih _ he).2 hr]

theorem redactValue_eq_iff : redactValue v = w ↔ Redacted v w := by
  constructor
  · rintro rfl
    exact redacted_redactValue v
  · exact Redacted.redactValue_eq

/-! ## Redaction of what is redacted -/

theorem redactEntry_redactEntry {e : Value × Value} (h : redactValue (redactValue e.2) = redactValue e.2) :
    redactEntry (redactEntry e) = redactEntry e := by
  rcases e with ⟨k, v⟩
  by_cases hk : isSensitiveKey k = true ∧ v.isMap = false
  · obtain ⟨name, rfl, hname⟩ := exists_name_of_sensitive hk.1
    rw [redactEntry_of_secret hname hk.2, redactEntry_of_secret hname rfl]
  · have hshown : isSensitiveKey k = true → v.isMap = true := fun hs => by simpa [hs] using hk
    rw [redactEntry_of_shown hshown, redactEntry_of_shown (by rwa [isMap_redactValue]), h]

theorem redactValue_redactValue (v : Value) : redactValue (redactValue v) = redactValue v := by
  induction v using Value.induction with
  | atom v hv => rw [redactValue_of_isAtom hv, redactValue_of_isAtom hv]
  | list items ih | tuple items ih =>
    simp only [redactValue, redactItems_eq_map, List.map_map]
    exact congrArg Value.list (List.map_congr_left ih)
  | map es ih =>
    simp only [redactValue, redactEntries_eq_map, List.map_map]
    exact congrArg Value.map (List.map_congr_left fun e he => redactEntry_redactEntry (ih e he).2)

/-! ## Values that differ in secrets -/

mutual

/-- Values that differ at most in what is under keys that name secrets and is no mapping, at any depth. -/
inductive UpToSecrets : Value → Value → Prop
  | same (v : Value) : UpToSecrets v v
  | list {xs ys : List Value} (h : List.Forall₂ UpToSecrets xs ys) : UpToSecrets (.list xs) (.list ys)
  | tuple {xs ys : List Value} (h : List.Forall₂ UpToSecrets xs ys) : UpToSecrets (.tuple xs) (.tuple ys)
  | map {es fs : List (Value × Value)} (h : List.Forall₂ UpToSecretsEntry es fs) : UpToSecrets (.map es) (.map fs)

inductive UpToSecretsEntry : Value × Value → Value × Value → Prop
  | value (key : Value) {v w : Value} (h : UpToSecrets v w) : UpToSecretsEntry (key, v) (key, w)
  | secret (name : String) {v w : Value} (hk : isSensitive name = true) (hv : v.isMap = false) (hw : w.isMap = false) :
    UpToSecretsEntry (.text name, v) (.text name, w)

end

theorem UpToSecrets.redactValue_eq (h : UpToSecrets v w) : redactValue v = redactValue w := by
  induction v using Value.induction generalizing w with
  | atom v hv =>
    cases h with
    | same => rfl
    | list | tuple | map => cases hv
  | list items ih =>
    cases h with
    | same => rfl
    | list h =>
      rw [redactValue, redactValue, redactItems_eq_map, redactItems_eq_map,
        h.map_eq_map fun x hx _ hr => ih x hx hr]
  | tuple items ih =>
    cases h with
    | same => rfl
    | tuple h =>
      rw [redactValue, redactValue, redactItems_eq_map, redactItems_eq_map,
        h.map_eq_map fun x hx _ hr => ih x hx hr]
  | map es ih =>
    cases h with
    | same => rfl
    | map h =>
      rw [redactValue, redactValue, redactEntries_eq_map, redactEntries_eq_map, h.map_eq_map]
      intro e he f hf
      cases hf with
      | value key hr => rw [redactEntry, redactEntry, (ih _ he).2 hr]
      | secret name hk hv hw => rw [redactEntry_of_secret hk hv, redactEntry_of_secret hk hw]

/-- A mapping without its secrets has its keys and lists as they were, the mark for what is under a key that names a
secret, and all else unchanged. It has no more secrets, and it is the same for mappings that differ in secrets. -/
theorem redact_redacted (es : Settings) :
    (∀ v, redact (.map es) = v ↔ Redacted (.map es) v)
      ∧ redact (redact (.map es)) = redact (.map es)
      ∧ ∀ fs : Settings, UpToSecrets (.map es) (.map fs) → redact (.map es) = redact (.map fs) :=
  ⟨fun v => redactValue_eq_iff (v := .map es) (w := v), redactValue_redactValue (.map es), fun _ h => h.redactValue_eq⟩

def withToken (token : Value) : Settings :=
  [(.text "db", .list [.map [(.text "apiToken", token), (.int 1, .null)], .tuple [.int 2]])]

theorem redact_redacted_token :
    redact (.map (withToken (.tuple [.int 3]))) = redact (.map (withToken (.text "x")))
      ∧ redact (.map (withToken (.text "x"))) =
        .map [(.text "db", .list [.map [(.text "apiToken", .text mark), (.int 1, .null)], .list [.int 2]])] := by
  have htoken : isSensitive "apiToken" = true := by decide +kernel
  have hdb : isSensitiveKey (.text "db") = true → (Value.list []).isMap = true := by decide +kernel
  refine ⟨(redact_redacted _).2.2 _ (.map (.cons (.value _ (.list (.cons (.map ?_) ?_))) .nil)), ?_⟩
  · exact .cons (.secret _ htoken rfl rfl) (.cons (.value _ (.same _)) .nil)
  · exact .cons (.same _) .nil
  · refine ((redact_redacted _).1 _).mpr (.map (.cons (.shown hdb (.list ?_)) .nil))
    refine .cons (.map (.cons (.hidden _ _ htoken rfl) (.cons (.shown ?_ (.atom rfl)) .nil))) (.cons (.tuple ?_) .nil)
    · exact nofun
    · exact .cons (.atom rfl) .nil

end Stanza.Redaction
