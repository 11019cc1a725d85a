import Stanza.Proofs.Decimal.Finite
import Stanza.Proofs.Log.Assignment
import Stanza.Proofs.Settings.Mapped
import Stanza.Proofs.Value
import Stanza.Proofs.Value.Rendered

/-! # Log records without their secrets

A value is first made plain, and then its secrets are hidden. What comes out is redacted: it is plain, and the mark is in
the place of every secret. What is redacted is left alone. Nothing in a redaction tells what was under a key that names a
secret. Keys become texts before anything is hidden, so a value has a redaction unless a number is too long for that.
-/
namespace Stanza.Log

/-! ## Item by item -/

theorem plainItems_eq_mapM (items : List Value) : plainItems items = items.mapM plain := by
  induction items with
  | nil => rfl
  | cons x xs ih => rw [plainItems, ih, List.mapM_cons]

def plainEntry (e : Value × Value) : Except Text.DigitLimitError (Value × Value) := do
  let name ← e.1.display
  let value ← plain e.2
  return (.text name, value)

theorem plainEntries_eq_mapM (es : Settings) : plainEntries es = es.mapM plainEntry := by
  induction es with
  | nil => rfl
  | cons e es ih => simp only [plainEntries, ih, plainEntry, List.mapM_cons, bind_assoc, pure_bind]

theorem plainEntry_eq_ok_iff {e f : Value × Value} :
    plainEntry e = .ok f ↔ ∃ name value, e.1.display = .ok name ∧ plain e.2 = .ok value ∧ f = (.text name, value) := by
  simp only [plainEntry, Except.bind_eq_ok_iff, pure, Except.pure, Except.ok.injEq]
  constructor
  · rintro ⟨name, hname, value, hvalue, rfl⟩
    exact ⟨name, value, hname, hvalue, rfl⟩
  · rintro ⟨name, value, hname, hvalue, rfl⟩
    exact ⟨name, hname, value, hvalue, rfl⟩

theorem plain_list_eq_ok_iff {items : List Value} {v : Value} :
    plain (.list items) = .ok v ↔ ∃ ps, List.Forall₂ (fun x p => plain x = .ok p) items ps ∧ .list ps = v := by
  rw [plain, plainItems_eq_mapM, Except.map_eq_ok_iff]
  simp only [Except.mapM_eq_ok_iff]

theorem plain_map_eq_ok_iff {es : Settings} {v : Value} : plain (.map es) = .ok v ↔
    ∃ ps, List.Forall₂ (fun e p => plainEntry e = .ok p) es ps ∧ .map (Settings.ofPairs ps) = v := by
  rw [plain, plainEntries_eq_mapM, Except.map_eq_ok_iff]
  simp only [Except.mapM_eq_ok_iff]
  rfl

theorem hideItems_eq_map (items : List Value) : hideItems items = items.map hide := by
  induction items with
  | nil => rfl
  | cons x xs ih => rw [hideItems, ih, List.map_cons]

def hideUnder (key value : Value) : Value := if isSensitiveKey key then .text mark else hide value

theorem hideEntries_eq_mapValues (es : Settings) : hideEntries es = es.mapValues hideUnder := by
  induction es with
  | nil => rfl
  | cons e es ih => rw [hideEntries, ih, Settings.mapValues_cons, hideUnder]

theorem byText_hideUnder : Settings.ByText hideUnder := by
  intro k l hk hl
  have hshown : ∀ x : Value, x.isText = false → isSensitiveKey x = false := by
    intro x hx
    cases x with
    | text _ => cases hx
    | _ => rfl
  funext v
  rw [hideUnder, hideUnder, hshown k hk, hshown l hl]

/-! ## Plain values -/

inductive Plain : Value → Prop
  | null : Plain .null
  | bool (b : Bool) : Plain (.bool b)
  | int (n : Int) : Plain (.int n)
  | text (s : String) : Plain (.text s)
  | float {x : Float} (h : isFinite x = true) : Plain (.float x)
  | list {items : List Value} (h : ∀ x ∈ items, Plain x) : Plain (.list items)
  | map {es : Settings} (hk : ∀ e ∈ es, e.1.isText = true) (hd : es.Distinct) (hv : ∀ e ∈ es, Plain e.2) : Plain (.map es)

variable {v w p q r : Value}

theorem plain_of_plain (h : Plain v) : plain v = .ok v := by
  induction h with
  | null | bool _ | int _ | text _ => rfl
  | float h => rw [plain, if_pos h]
  | @list items _ ih => exact plain_list_eq_ok_iff.mpr ⟨items, List.forall₂_same.mpr ih, rfl⟩
  | @map es hk hd _ ih =>
    refine plain_map_eq_ok_iff.mpr ⟨es, List.forall₂_same.mpr fun e he => ?_, congrArg Value.map hd.overlay_nil⟩
    have hkey := hk e he
    rcases e with ⟨k, value⟩
    cases k with
    | text name => exact plainEntry_eq_ok_iff.mpr ⟨name, value, rfl, ih _ he, rfl⟩
    | _ => cases hkey

theorem plain_of_plain_eq_ok (h : plain v = .ok p) : Plain p := by
  induction v using Value.induction generalizing p with
  | atom v hv =>
    cases v with
    | null => cases h; exact .null
    | bool b => cases h; exact .bool b
    | int n => cases h; exact .int n
    | text s => cases h; exact .text s
    | float x =>
      rw [plain] at h
      split at h
      · next hx => cases h; exact .float hx
      · cases h; exact .text mark
    | span s => cases h; exact .float (isFinite_toSeconds s)
    | list _ | tuple _ | map _ => cases hv
    | period _ | path _ | moment _ | foreign _ =>
      obtain ⟨s, -, rfl⟩ := Except.map_eq_ok_iff.mp h
      exact .text s
  | list items ih | tuple items ih =>
    obtain ⟨ps, hps, rfl⟩ := plain_list_eq_ok_iff.mp h
    refine .list fun p hp => ?_
    obtain ⟨x, hx, hplain⟩ := hps.exists_of_mem_right hp
    exact ih x hx hplain
  | map es ih =>
    obtain ⟨ps, hps, rfl⟩ := plain_map_eq_ok_iff.mp h
    have hparts : ∀ f ∈ Settings.ofPairs ps, f.1.isText = true ∧ Plain f.2 := by
      refine Settings.forall_mem_ofPairs (P := fun k => k.isText = true) (Q := Plain) fun f hf => ?_
      obtain ⟨e, he, hentry⟩ := hps.exists_of_mem_right hf
      obtain ⟨name, value, -, hvalue, rfl⟩ := plainEntry_eq_ok_iff.mp hentry
      exact ⟨rfl, (ih e he).2 hvalue⟩
    exact .map (fun f hf => (hparts f hf).1) (Settings.distinct_overlay .nil ps) fun f hf => (hparts f hf).2

theorem redact_eq_ok_iff : redact v = .ok r ↔ ∃ p, plain v = .ok p ∧ hide p = r := Except.map_eq_ok_iff

/-! ## Redacted values -/

/-- A plain value with the mark in the place of every secret. -/
inductive Redacted : Value → Prop
  | null : Redacted .null
  | bool (b : Bool) : Redacted (.bool b)
  | int (n : Int) : Redacted (.int n)
  | text {s : String} (h : Marked s) : Redacted (.text s)
  | float {x : Float} (h : isFinite x = true) : Redacted (.float x)
  | list {items : List Value} (h : ∀ x ∈ items, Redacted x) : Redacted (.list items)
  | map {es : Settings} (hk : ∀ e ∈ es, e.1.isText = true) (hd : es.Distinct) (hv : ∀ e ∈ es, Redacted e.2)
    (hs : ∀ e ∈ es, isSensitiveKey e.1 = true → e.2 = .text mark) : Redacted (.map es)

theorem marked_mark : Marked mark := redactText_eq_self_iff.mp (by decide +kernel)

theorem Plain.redacted_hide (h : Plain v) : Redacted (hide v) := by
  induction h with
  | null => exact .null
  | bool b => exact .bool b
  | int n => exact .int n
  | text s => exact .text (redactText_eq_self_iff.mp (redactText_redactText s))
  | float h => exact .float h
  | list _ ih =>
    rw [hide, hideItems_eq_map]
    exact .list (List.forall_mem_map.mpr ih)
  | map hk hd _ ih =>
    rw [hide, hideEntries_eq_mapValues]
    refine .map (List.forall_mem_map.mpr hk) (List.pairwise_map.mpr hd) (List.forall_mem_map.mpr fun e he => ?_)
      (List.forall_mem_map.mpr fun e _ hsecret => if_pos hsecret)
    rw [hideUnder]
    split
    · exact .text marked_mark
    · exact ih e he

theorem Redacted.plain (h : Redacted v) : Plain v := by
  induction h with
  | null => exact .null
  | bool b => exact .bool b
  | int n => exact .int n
  | text _ => exact .text _
  | float h => exact .float h
  | list _ ih => exact .list ih
  | map hk hd _ _ ih => exact .map hk hd ih

theorem Redacted.hide_eq (h : Redacted v) : hide v = v := by
  induction h with
  | null | bool _ | int _ | float _ => rfl
  | text h => exact congrArg Value.text (redactText_eq_self_iff.mpr h)
  | list _ ih =>
    rw [hide, hideItems_eq_map]
    exact congrArg Value.list ((List.map_congr_left ih).trans (List.map_id _))
  | @map es _ _ _ hs ih =>
    have hentry : ∀ e ∈ es, (e.1, hideUnder e.1 e.2) = id e := by
      intro e he
      rw [hideUnder]
      split
      · next hsecret => rw [← hs e he hsecret, id]
      · rw [ih e he, id]
    rw [hide, hideEntries_eq_mapValues]
    exact congrArg Value.map ((List.map_congr_left hentry).trans (List.map_id _))

theorem redacted_of_redact (h : redact v = .ok r) : Redacted r := by
  obtain ⟨p, hp, rfl⟩ := redact_eq_ok_iff.mp h
  exact (plain_of_plain_eq_ok hp).redacted_hide

/-- The redacted values are those that redaction leaves alone. -/
theorem redact_eq_self_iff : redact v = .ok v ↔ Redacted v :=
  ⟨redacted_of_redact, fun h => redact_eq_ok_iff.mpr ⟨v, plain_of_plain h.plain, h.hide_eq⟩⟩

theorem Redacted.marked (h : Redacted v) : ∀ x ∈ v.ends, ∀ s, x = .text s → Marked s := by
  induction h with
  | null | bool _ | int _ | float _ => exact (Value.forall_ends_atom rfl).mpr nofun
  | text h =>
    refine (Value.forall_ends_atom rfl).mpr ?_
    rintro _ ⟨⟩
    exact h
  | list _ ih => exact Value.forall_ends_list.mpr ih
  | map _ _ _ _ ih => exact Value.forall_ends_map.mpr ih

/-! ## What has a redaction -/

theorem succeeds_plainEntry_iff {e : Value × Value} :
    (plainEntry e).Succeeds ↔ e.1.display.Succeeds ∧ (plain e.2).Succeeds :=
  Except.succeeds_bind_iff fun _ _ => Except.succeeds_map_iff

/-- What has to be written as text is every key, and at the ends what not all record formats can hold. -/
theorem succeeds_plain_iff :
    (plain v).Succeeds ↔ (∀ k ∈ v.innerKeys, k.display.Succeeds) ∧ ∀ x ∈ v.ends, (plain x).Succeeds := by
  induction v using Value.induction with
  | atom v hv =>
    rw [Value.innerKeys_of_isAtom hv, Value.forall_ends_atom hv]
    exact (and_iff_right fun _ hk => absurd hk List.not_mem_nil).symm
  | list items ih | tuple items ih =>
    refine Except.succeeds_map_iff.trans ?_
    rw [plainItems_eq_mapM, Except.succeeds_mapM_iff]
    refine (forall₂_congr ih).trans (forall₂_and.trans ?_)
    exact and_congr Value.forall_innerKeys_list.symm Value.forall_ends_list.symm
  | map es ih =>
    refine Except.succeeds_map_iff.trans ?_
    rw [plainEntries_eq_mapM, Except.succeeds_mapM_iff, Value.forall_innerKeys_map, Value.forall_ends_map, ← forall₂_and]
    refine forall₂_congr fun e he => ?_
    rw [succeeds_plainEntry_iff, (ih e he).2, and_assoc]

theorem succeeds_plain_atom_iff (h : v.isAtom = true) : (plain v).Succeeds ↔
    (∀ p, v = .period p → p.Writable) ∧ ∀ x, v = .foreign x → x.literal?.isSome = true := by
  cases v with
  | period p =>
    refine Except.succeeds_map_iff.trans (Value.succeeds_period_write_iff.trans ?_)
    simp
  | foreign x =>
    refine Except.succeeds_map_iff.trans ((Value.succeeds_literal_atom_iff (v := .foreign x) rfl).trans ?_)
    simp [Value.Short]
  | list _ | tuple _ | map _ => cases h
  | _ => exact iff_of_true (Except.succeeds_ok _) ⟨by rintro _ ⟨⟩, by rintro _ ⟨⟩⟩

/-- No integer in a key, a period or a value of another type has more than 4300 digits. -/
structure Writable (v : Value) : Prop where
  keys : ∀ k ∈ v.innerKeys, ∀ x ∈ k.leaves, x.Short
  periods : ∀ x ∈ v.ends, ∀ p, x = .period p → p.Writable
  others : ∀ x ∈ v.ends, ∀ y, x = .foreign y → y.literal?.isSome = true

theorem succeeds_redact_iff : (redact v).Succeeds ↔ Writable v := by
  refine Except.succeeds_map_iff.trans (succeeds_plain_iff.trans ?_)
  rw [forall₂_congr fun _ _ => Value.succeeds_display_iff_short,
    forall₂_congr fun x hx => succeeds_plain_atom_iff (Value.isAtom_of_mem_ends x hx)]
  exact ⟨fun ⟨hkeys, hends⟩ => ⟨hkeys, fun x hx => (hends x hx).1, fun x hx => (hends x hx).2⟩,
    fun h => ⟨h.keys, fun x hx => ⟨h.periods x hx, h.others x hx⟩⟩⟩

/-! ## Values that differ in secrets -/

mutual

/-- Values that differ at most in what is under keys whose text names a secret, at any depth. -/
inductive UpToSecrets : Value → Value → Prop
  | same (v : Value) : UpToSecrets v v
  | list {xs ys : List Value} (h : List.Forall₂ UpToSecrets xs ys) : UpToSecrets (.list xs) (.list ys)
  | tuple {xs ys : List Value} (h : List.Forall₂ UpToSecrets xs ys) : UpToSecrets (.tuple xs) (.tuple ys)
  | map {es fs : List (Value × Value)} (h : List.Forall₂ UpToSecretsEntry es fs) : UpToSecrets (.map es) (.map fs)

inductive UpToSecretsEntry : Value × Value → Value × Value → Prop
  | value (key : Value) {v w : Value} (h : UpToSecrets v w) : UpToSecretsEntry (key, v) (key, w)
  | secret (key : Value) {name : String} (hkey : key.display = .ok name) (hk : isSensitive name = true) (v w : Value) :
    UpToSecretsEntry (key, v) (key, w)

end

def hideEntry (e : Value × Value) : Value × Value := (e.1, hideUnder e.1 e.2)

/-- Entries whose keys become one text are merged in the same way before and after hiding. -/
theorem hideEntries_ofPairs (es : Settings) :
    hideEntries (Settings.ofPairs es) = Settings.ofPairs (es.map hideEntry) := by
  rw [hideEntries_eq_mapValues, ← Settings.ofPairs_mapValues byText_hideUnder]
  rfl

theorem hide_eq_of_items {xs ys : List Value} (h : List.Forall₂ UpToSecrets xs ys) (hp : plain (.list xs) = .ok p)
    (hq : plain (.list ys) = .ok q)
    (hitems : ∀ x ∈ xs, ∀ y a b, UpToSecrets x y → plain x = .ok a → plain y = .ok b → hide a = hide b) : hide p = hide q := by
  obtain ⟨ps, hps, rfl⟩ := plain_list_eq_ok_iff.mp hp
  obtain ⟨qs, hqs, rfl⟩ := plain_list_eq_ok_iff.mp hq
  rw [hide, hide, hideItems_eq_map, hideItems_eq_map, h.map_eq_map_of_forall₂ hps hqs hitems]

theorem UpToSecrets.hide_eq (h : UpToSecrets v w) (hp : plain v = .ok p) (hq : plain w = .ok q) : hide p = hide q := by
  induction v using Value.induction generalizing w p q with
  | atom v hv =>
    cases h with
    | same => rw [Except.ok.inj (hp.symm.trans hq)]
    | list | tuple | map => cases hv
  | list items ih =>
    cases h with
    | same => rw [Except.ok.inj (hp.symm.trans hq)]
    | list h => exact hide_eq_of_items h hp hq fun x hx _ _ _ => ih x hx
  | tuple items ih =>
    cases h with
    | same => rw [Except.ok.inj (hp.symm.trans hq)]
    | tuple h => exact hide_eq_of_items h hp hq fun x hx _ _ _ => ih x hx
  | map es ih =>
    cases h with
    | same => rw [Except.ok.inj (hp.symm.trans hq)]
    | map h =>
      obtain ⟨ps, hps, rfl⟩ := plain_map_eq_ok_iff.mp hp
      obtain ⟨qs, hqs, rfl⟩ := plain_map_eq_ok_iff.mp hq
      rw [hide, hide, hideEntries_ofPairs, hideEntries_ofPairs, h.map_eq_map_of_forall₂ hps hqs]
      intro e he f a b hef ha hb
      obtain ⟨name, value, hname, hvalue, rfl⟩ := plainEntry_eq_ok_iff.mp ha
      obtain ⟨name', value', hname', hvalue', rfl⟩ := plainEntry_eq_ok_iff.mp hb
      cases hef with
      | value key h =>
        rw [Except.ok.inj (hname.symm.trans hname'), hideEntry, hideEntry, hideUnder, hideUnder, (ih _ he).2 h hvalue hvalue']
      | secret key hkey hk =>
        rw [← Except.ok.inj (hkey.symm.trans hname), ← Except.ok.inj (hkey.symm.trans hname'), hideEntry, hideEntry, hideUnder,
          hideUnder, isSensitiveKey, hk]
        rfl

/-- A value has a redaction exactly if no integer in its keys, its periods and its values of other types is too long to be
written. It is its own redaction exactly if it is redacted. A redaction is redacted, in its texts every value that a key
for a secret is given is the mark, and it is the same for all values that differ in secrets. -/
theorem redact_hides (v : Value) :
    ((redact v).Succeeds ↔ Writable v) ∧ (redact v = .ok v ↔ Redacted v) ∧ ∀ r, redact v = .ok r →
      redact r = .ok r ∧ (∀ s, .text s ∈ r.ends → Marked s) ∧ ∀ w q, UpToSecrets v w → redact w = .ok q → q = r := by
  refine ⟨succeeds_redact_iff, redact_eq_self_iff, fun r hr => ⟨?_, ?_, ?_⟩⟩
  · exact redact_eq_self_iff.mpr (redacted_of_redact hr)
  · exact fun s hs => (redacted_of_redact hr).marked _ hs s rfl
  · intro w q hvw hq
    obtain ⟨p, hp, rfl⟩ := redact_eq_ok_iff.mp hr
    obtain ⟨p', hp', rfl⟩ := redact_eq_ok_iff.mp hq
    exact (hvw.hide_eq hp hp').symm

def request (secret : Value) : Value :=
  .map [(.text "note", .list [.text "my-Token = abc, x"]), (.tuple [.text "db", .text "Password"], secret)]

def redactedRequest : Value :=
  .map [(.text "note", .list [.text "my-Token=***REDACTED***, x"]), (.text "('db', 'Password')", .text mark)]

theorem redact_hides_request : redact (request (.tuple [.int 1, .map [(.int 2, .null)]])) = .ok redactedRequest
    ∧ redact redactedRequest = .ok redactedRequest ∧ Marked "my-Token=***REDACTED***, x" := by
  have hnote : (Value.text "note").display = .ok "note" ∧ isSensitive "note" = false := by decide +kernel
  have hkey : (Value.tuple [.text "db", .text "Password"]).display = .ok "('db', 'Password')" := by decide +kernel
  have hsecret : isSensitive "('db', 'Password')" = true := by decide +kernel
  have htext : redactText "my-Token = abc, x" = "my-Token=***REDACTED***, x" := by decide +kernel
  have hnull : redact (request .null) = .ok redactedRequest := by
    have hpairs : Settings.ofPairs [(.text "note", .list [.text "my-Token = abc, x"]), (.text "('db', 'Password')", .null)] =
        [(.text "note", .list [.text "my-Token = abc, x"]), (.text "('db', 'Password')", .null)] :=
      Settings.Distinct.overlay_nil (by decide)
    refine redact_eq_ok_iff.mpr ⟨_, plain_map_eq_ok_iff.mpr ⟨_, .cons ?_ (.cons ?_ .nil), congrArg Value.map hpairs⟩, ?_⟩
    · exact plainEntry_eq_ok_iff.mpr ⟨_, _, hnote.1, rfl, rfl⟩
    · exact plainEntry_eq_ok_iff.mpr ⟨_, _, hkey, rfl, rfl⟩
    · simp [hide, hideEntries, hideItems, isSensitiveKey, hnote.2, hsecret, htext, redactedRequest]
  have hwritable : Writable (request (.tuple [.int 1, .map [(.int 2, .null)]])) := by
    have htwo : Text.Writable 2 := by decide
    constructor
    · simp [request, Value.innerKeys, Value.innerKeysOfItems, Value.innerKeysOfEntries, Value.leaves, Value.leavesOfItems,
        Value.Short, htwo]
    · simp [request, Value.ends, Value.endsOfItems, Value.endsOfEntries]
    · simp [request, Value.ends, Value.endsOfItems, Value.endsOfEntries]
  obtain ⟨q, hq⟩ := (redact_hides _).1.mpr hwritable
  obtain ⟨hself, hmarked, hsame⟩ := (redact_hides _).2.2 _ hnull
  have hdiffer : UpToSecrets (request .null) (request (.tuple [.int 1, .map [(.int 2, .null)]])) :=
    .map (.cons (.value _ (.same _)) (.cons (.secret _ hkey hsecret _ _) .nil))
  exact ⟨hsame _ q hdiffer hq ▸ hq, hself, hmarked _ (by simp [redactedRequest, Value.ends, Value.endsOfItems, Value.endsOfEntries])⟩

end Stanza.Log
