import Stanza.Command.Dump
import Stanza.Proofs.Config.Frozen
import Stanza.Proofs.Schema.RoundTrip

/-! # Sections as they are written out

A frozen section is rendered like the section itself. Retired settings that have their default are left out, and
resolution fills them in again, so the section comes back with its settings in some order.
-/
namespace Stanza.Dump

open Schema

variable {spec : SectionSpec} {out raw : Settings}

/-! ## Rendering frozen sections -/

theorem renderValue_freeze {field : Outgoing} {v : Value} (h : Settled field v) :
    renderValue field.kind v.freeze = renderValue field.kind v := by
  cases h with
  | texts hk _ => rw [hk, freeze_ofTexts]; rfl
  | _ => rfl

theorem render_freezeEntries (hs : Sound spec out) :
    render spec.outgoing (freezeEntries out) = render spec.outgoing out := by
  have hentry : ∀ e ∈ out, renderEntry spec.outgoing (e.1, e.2.freeze) = renderEntry spec.outgoing e := by
    rintro ⟨k, v⟩ he
    obtain ⟨name, field, hname, _, hg, hset⟩ := hs.settled _ he
    cases hname
    simp only [renderEntry, hg, renderValue_freeze hset]
  clear hs
  rw [freezeEntries_eq_map]
  induction out with
  | nil => rfl
  | cons e es ih =>
    have htail := ih fun f hf => hentry f (List.mem_cons_of_mem _ hf)
    simp only [render] at htail ⊢
    rw [List.map_cons, List.mapM_cons, List.mapM_cons, hentry e List.mem_cons_self, htail]

/-! ## Defaults of retired settings -/

def defaultText? (spec : SectionSpec) (key : String) : Option String :=
  match spec.incoming.get? key with
  | some { default := .fixed (.text s), .. } => some s
  | some { default := .fixed (.int n), .. } => some (String.ofList (Text.decimal n))
  | _ => none

/-- Whether the default of a setting, if it has one, is a text or an integer as its field demands. -/
def restorable (spec : SectionSpec) (key : String) : Bool :=
  match spec.incoming.get? key, spec.outgoing.get? key with
  | some { default := .none, .. }, _ => true
  | some { default := .fixed (.text _), .. }, some { kind := .text, .. } => true
  | some { default := .fixed (.int n), .. }, some { kind := .integer, .. } => decide (Text.Writable n)
  | _, _ => false

theorem isDefault_eq {key : String} (h : restorable spec key = true) (raw : Settings) :
    isDefault spec raw key = .ok ((defaultText? spec key).any fun s => (raw.get? key).any (·.same (.text s))) := by
  unfold restorable at h
  rw [isDefault, defaultText?]
  split at h
  · next hin => rw [hin]; rfl
  · next hin _ => rw [hin]; rfl
  · next hin _ =>
    rw [hin]
    simp only [Value.isNull, Value.display, Value.literal, Text.writeInteger_of_writable (of_decide_eq_true h)]
    rfl
  · cases h

theorem restorable_database : ∀ key ∈ Retirement.databaseKeys, restorable database key = true := by decide

theorem restorable_writeDatabase : ∀ key ∈ Retirement.databaseKeys, restorable writeDatabase key = true := by decide

theorem restorable_commandProcessing (host : Host) :
    ∀ key ∈ Retirement.commandProcessingKeys, restorable (commandProcessing host) key = true := by
  have h : ∀ key ∈ Retirement.commandProcessingKeys, restorable (commandProcessing ⟨1, 0⟩) key = true := by decide
  simp only [Retirement.commandProcessingKeys, List.forall_mem_cons, List.not_mem_nil, false_imp_iff, implies_true,
    and_true] at h ⊢
  exact h

def isLeftOut (spec : SectionSpec) (retired : List String) : Value × Value → Bool
  | (.text name, v) => retired.contains name && (defaultText? spec name).any fun s => v.same (.text s)
  | _ => false

theorem isLeftOut_iff {retired : List String} {e : Value × Value} : isLeftOut spec retired e = true ↔
    ∃ name s, e = (.text name, .text s) ∧ name ∈ retired ∧ defaultText? spec name = some s := by
  rcases e with ⟨k, v⟩
  cases k with
  | text name =>
    simp only [isLeftOut, Bool.and_eq_true, List.contains_iff_mem, Option.any_eq_true, Value.same_text_iff]
    constructor
    · rintro ⟨hm, s, hs, rfl⟩
      exact ⟨name, s, rfl, hm, hs⟩
    · rintro ⟨_, s, h, hm, hs⟩
      cases h
      exact ⟨hm, s, hs, rfl⟩
  | _ => simp [isLeftOut]

theorem any_same_iff {key : String} : ((defaultText? spec key).any fun s => (raw.get? key).any (·.same (.text s))) = true ↔
    ∃ s, defaultText? spec key = some s ∧ raw.get? key = some (.text s) := by
  simp [Option.any_eq_true, Value.same_text_iff]

theorem erase_eq_filter {key : String} (hn : (Settings.keys raw).Nodup) :
    (if (defaultText? spec key).any fun s => (raw.get? key).any (·.same (.text s)) then raw.erase key else raw)
      = raw.filter fun e => !isLeftOut spec [key] e := by
  split
  · next h =>
    obtain ⟨s, hs, hv⟩ := any_same_iff.mp h
    refine List.filter_congr fun e he => congrArg _ (Bool.eq_iff_iff.mpr ?_)
    rw [Settings.hasName_iff, isLeftOut_iff]
    constructor
    · intro hk
      have hget := Settings.get?_of_mem hn (hk ▸ he : (.text key, e.2) ∈ raw)
      exact ⟨key, s, Prod.ext hk (Option.some.inj (hget.symm.trans hv)), List.mem_singleton_self _, hs⟩
    · rintro ⟨name, _, rfl, hm, _⟩
      rw [List.mem_singleton.mp hm]
  · next h =>
    refine (List.filter_eq_self.mpr fun e he => ?_).symm
    rw [Bool.not_eq_true', Bool.eq_false_iff, Ne, isLeftOut_iff]
    rintro ⟨name, s, rfl, hm, hs⟩
    cases List.mem_singleton.mp hm
    exact h (any_same_iff.mpr ⟨s, hs, Settings.get?_of_mem hn he⟩)

theorem isLeftOut_cons (key : String) (retired : List String) (e : Value × Value) :
    isLeftOut spec (key :: retired) e = (isLeftOut spec [key] e || isLeftOut spec retired e) := by
  rcases e with ⟨k, v⟩
  cases k with
  | text name => simp [isLeftOut, Bool.and_or_distrib_right]
  | _ => rfl

/-- What is written out of a section. -/
theorem foldlM_isDefault {retired : List String} (hr : ∀ key ∈ retired, restorable spec key = true)
    (hn : (Settings.keys raw).Nodup) :
    retired.foldlM (fun raw key => do return if ← isDefault spec raw key then raw.erase key else raw) raw
      = (.ok (raw.filter fun e => !isLeftOut spec retired e) : Except Fault Settings) := by
  induction retired generalizing raw with
  | nil =>
    have hnone : ∀ e, isLeftOut spec [] e = false := by
      intro e
      rw [Bool.eq_false_iff, Ne, isLeftOut_iff]
      simp
    simp [hnone]
    rfl
  | cons key retired ih =>
    -- erasing one key leaves the raw form without repeated keys, which is all the next step needs
    have hfilter : (Settings.keys (raw.filter fun e => !isLeftOut spec [key] e)).Nodup :=
      (List.filter_sublist.map _).nodup hn
    rw [List.foldlM_cons, isDefault_eq (hr key List.mem_cons_self)]
    change List.foldlM _ (if _ then _ else _) retired = _
    rw [erase_eq_filter hn, ih (fun k hk => hr k (List.mem_cons_of_mem _ hk)) hfilter, List.filter_filter]
    refine congrArg Except.ok (List.filter_congr fun e _ => ?_)
    rw [isLeftOut_cons key retired, Bool.not_or, Bool.and_comm]

/-! ## What is written is read again -/

theorem convert_default {key s : String} {incoming : Incoming} {field : Outgoing} (hr : restorable spec key = true)
    (hi : spec.incoming.get? key = some incoming) (hg : spec.outgoing.get? key = some field)
    (hs : defaultText? spec key = some s) : convert field incoming.default.value = convert field (.text s) := by
  unfold restorable at hr
  rw [hi, hg] at hr
  rw [defaultText?, hi] at hs
  split at hr
  · next h =>
    cases h
    cases hs
  · next h _ =>
    cases h
    cases hs
    rfl
  · next h hk =>
    cases h
    cases hk
    cases hs
    exact convert_of_wholeNumber (.inl rfl) (wholeNumber_decimal (of_decide_eq_true hr)).symm
  · cases hr

theorem renderValue_default {key : String} {incoming : Incoming} {field : Outgoing} (hr : restorable spec key = true)
    (hi : spec.incoming.get? key = some incoming) (hg : spec.outgoing.get? key = some field)
    (hn : incoming.default.value.isNull = false) :
    ∃ s, renderValue field.kind incoming.default.value = .ok (.text s) ∧ defaultText? spec key = some s := by
  unfold restorable at hr
  rw [hi, hg] at hr
  rw [defaultText?, hi]
  split at hr
  · next h =>
    cases h
    cases hn
  · next h hk =>
    cases h
    cases hk
    exact ⟨_, rfl, rfl⟩
  · next h hk =>
    cases h
    cases hk
    exact ⟨_, map_text_writeInteger (of_decide_eq_true hr), rfl⟩
  · cases hr

theorem isNull_default {key s : String} {incoming : Incoming} (hi : spec.incoming.get? key = some incoming)
    (hs : defaultText? spec key = some s) : incoming.default.value.isNull = false := by
  rw [defaultText?, hi] at hs
  split at hs
  · next h => cases h; rfl
  · next h => cases h; rfl
  · cases hs

theorem renderEntry_fst {e f : Value × Value} (h : renderEntry spec.outgoing e = .ok f) : e.1 = f.1 := by
  rcases e with ⟨k, v⟩
  cases k with
  | text name =>
    simp only [renderEntry] at h
    split at h
    · obtain ⟨_, _, rfl⟩ := Except.map_eq_ok_iff.mp h
      rfl
    · cases h
      rfl
  | _ => cases h; rfl

/-- Settings with no list that falls apart are read from what is written of them. -/
theorem exists_reads_self (hs : Sound spec out) (hw : ∀ e ∈ out, e.2.Writable) (hsep : ∀ e ∈ out, Separable e.2) :
    ∃ rendered, render spec.outgoing out = .ok rendered ∧ List.Forall₂ (Reads spec) rendered out := by
  obtain ⟨rendered, again, hrender, hreads, hpairs⟩ := hs.exists_reads hw
  have hsame : List.Forall₂ (· = ·) again out :=
    hpairs.flip.imp_of_mem fun _ e he h => Prod.ext h.1.symm (h.2.mpr (hsep e he))
  rw [List.forall₂_eq_eq_eq] at hsame
  exact ⟨rendered, hrender, hsame ▸ hreads⟩

def AtDefault (spec : SectionSpec) (keys : List String) (out : Settings) : Prop :=
  ∀ key ∈ keys, ∀ v, out.get? key = some v →
    ∃ field, spec.incoming.get? key = some field ∧ field.default.value = v

variable {retired : List String}

theorem convert_default_self {key : String} {incoming : Incoming} {field : Outgoing} {v : Value}
    (hr : restorable spec key = true) (hi : spec.incoming.get? key = some incoming)
    (hg : spec.outgoing.get? key = some field) (hn : incoming.default.value.isNull = false)
    (h : convert field incoming.default.value = .ok v) : incoming.default.value = v := by
  unfold restorable at hr
  rw [hi, hg] at hr
  split at hr
  · next heq =>
    cases heq
    cases hn
  · next heq hk =>
    cases heq
    cases hk
    exact Except.ok.inj h
  · next heq hk =>
    cases heq
    cases hk
    obtain ⟨n, hw, _, rfl⟩ := (convert_integer_iff rfl).mp h
    cases hw
    rfl
  · cases hr

/-- What is not written has its default. -/
theorem atDefault_of_resolveSection (hc : Coherent spec) (hr : ∀ key ∈ retired, restorable spec key = true)
    (hraw : ∀ key ∈ retired, raw.has key = false) {heading : String}
    (h : (resolveSection spec raw heading).result = .ok out) : AtDefault spec retired out := by
  obtain ⟨_, hconv, _⟩ := resolveSection_eq_ok_iff.mp h
  have hs := sound_of_resolveSection hc h
  intro key hkey v hv
  obtain ⟨e, he, hk, hcv⟩ := hconv.exists_of_mem_right (Settings.mem_of_get? hv)
  rcases mem_fillDefaults hc.nodup_incoming he with he | ⟨incoming, hi, hn, rfl⟩
  · have hh : raw.has key = true := by
      rw [Settings.has_iff_mem_keys]
      exact List.mem_map.mpr ⟨e, List.mem_of_mem_filter he, hk⟩
    rw [hraw key hkey] at hh
    cases hh
  · cases Value.text.inj hk
    have hget := Spec.get?_of_mem hc.nodup_incoming hi
    obtain ⟨_, field, hname, _, hg, _⟩ := hs.settled _ (Settings.mem_of_get? hv)
    cases hname
    simp only [defaultEntry, fieldOf?, hg] at hcv
    exact ⟨incoming, hget, convert_default_self (hr _ hkey) hget hg hn hcv⟩

theorem isLeftOut_of_atDefault (hs : Sound spec out) (hn : (Settings.keys out).Nodup)
    (hr : ∀ key ∈ retired, restorable spec key = true) (hd : AtDefault spec retired out) {e f : Value × Value}
    (he : renderEntry spec.outgoing e = .ok f) (hmem : e ∈ out) {key : String} (hkey : key ∈ retired)
    (hek : e.1 = .text key) : isLeftOut spec retired f = true := by
  rcases e with ⟨_, v⟩
  cases hek
  obtain ⟨incoming, hi, rfl⟩ := hd key hkey v (Settings.get?_of_mem hn hmem)
  obtain ⟨_, field, hname, _, hg, hset⟩ := hs.settled _ hmem
  cases hname
  obtain ⟨s, hrender, htext⟩ := renderValue_default (hr key hkey) hi hg hset.isNull
  simp only [renderEntry, hg, hrender] at he
  cases he
  exact isLeftOut_iff.mpr ⟨key, s, rfl, hkey, htext⟩

/-- Raw settings that are resolved to the given ones, without a warning. -/
structure Restores (spec : SectionSpec) (raw out : Settings) : Prop where
  distinct : raw.Distinct
  again : ∃ again, (∀ heading, resolveSection spec raw heading = ⟨[], .ok again⟩) ∧ again.SameMapping out

/-- What is missing has been left out, and its default is what was there. -/
theorem exists_converts_of_isMissing (hc : Coherent spec) (hs : Sound spec out)
    (hr : ∀ key ∈ retired, restorable spec key = true) {rendered : Settings} (hreads : List.Forall₂ (Reads spec) rendered out)
    (hn : (Settings.keys rendered).Nodup) {field : Incoming} (hf : field ∈ spec.incoming.fields)
    (hm : isMissing (rendered.filter fun e => !isLeftOut spec retired e) field = true) :
    ∃ f, f ∈ out ∧ Converts spec.outgoing (defaultEntry field) f := by
  obtain ⟨hmiss, hnull⟩ : Settings.has _ field.name = false ∧ field.default.value.isNull = false := by
    simpa [isMissing] using hm
  have hhas := Settings.has_iff_mem_keys.mp (hs.filled field hf hnull)
  rw [← keys_of_reads hreads] at hhas
  obtain ⟨⟨_, v⟩, he, rfl⟩ := List.mem_map.mp hhas
  rw [Settings.has_filter_of_mem hn he, Bool.not_eq_false'] at hmiss
  obtain ⟨_, s, heq, hkey, htext⟩ := isLeftOut_iff.mp hmiss
  cases heq
  obtain ⟨f, hfm, hk, _, ofield, _, hname, _, hg, ht, hconv⟩ := hreads.exists_of_mem_left he
  cases hk.trans hname
  cases ht
  refine ⟨f, hfm, hname.symm, ?_⟩
  have hd := convert_default (hr _ hkey) (Spec.get?_of_mem hc.nodup_incoming hf) hg htext
  simp only [defaultEntry, fieldOf?, hg, hd, hconv]

/-- A setting is still there, or it is missing and has a default. -/
theorem mem_keys_or_isMissing {rendered : Settings} (hreads : List.Forall₂ (Reads spec) rendered out)
    (hn : (Settings.keys rendered).Nodup) {f : Value × Value} (hf : f ∈ out) :
    f.1 ∈ Settings.keys (rendered.filter fun e => !isLeftOut spec retired e) ∨
      ∃ field ∈ spec.incoming.fields, isMissing (rendered.filter fun e => !isLeftOut spec retired e) field = true ∧
        f.1 = .text field.name := by
  obtain ⟨⟨k, v⟩, he, hk, name, _, _, hname, hd, _⟩ := hreads.exists_of_mem_right hf
  cases hk.trans hname
  have hhas := Settings.has_filter_of_mem hn he fun e => !isLeftOut spec retired e
  rw [hname]
  cases hl : isLeftOut spec retired (.text name, v) with
  | false =>
    rw [hl] at hhas
    exact .inl (Settings.has_iff_mem_keys.mp hhas)
  | true =>
    rw [hl] at hhas
    obtain ⟨_, s, heq, hkey, htext⟩ := isLeftOut_iff.mp hl
    cases heq
    obtain ⟨field, hg⟩ := Spec.exists_get?_iff.mpr hd
    obtain ⟨hmem, rfl⟩ := Spec.get?_eq_some hg
    have hnull := isNull_default hg htext
    refine .inr ⟨field, hmem, ?_, rfl⟩
    simp only [isMissing, Bool.and_eq_true, Bool.not_eq_true']
    exact ⟨hhas, hnull⟩

/-- The raw form of a section without the retired settings that have their default is resolved to the same settings
in some order. None of the retired ones is left if they all have their defaults. -/
theorem exists_rawSettings (hc : Coherent spec) (hs : Sound spec out) (hn : (Settings.keys out).Nodup)
    (hw : ∀ e ∈ out, e.2.Writable) (hsep : ∀ e ∈ out, Separable e.2)
    (hr : ∀ key ∈ retired, restorable spec key = true) :
    ∃ raw, rawSettings spec (freezeEntries out) retired = .ok raw ∧ Restores spec raw out ∧
      (AtDefault spec retired out → ∀ key ∈ retired, raw.has key = false) := by
  obtain ⟨rendered, hrender, hreads⟩ := exists_reads_self hs hw hsep
  have hkeys : Settings.keys rendered = Settings.keys out := keys_of_reads hreads
  have hrendered : (Settings.keys rendered).Nodup := hkeys ▸ hn
  have htext : Settings.TextKeys (rendered.filter fun e => !isLeftOut spec retired e) := by
    intro k hk
    obtain ⟨e, he, rfl⟩ := List.mem_map.mp hk
    exact hs.textKeys e.1 (hkeys ▸ List.mem_map_of_mem (List.mem_of_mem_filter he))
  have hnodup : (Settings.keys (rendered.filter fun e => !isLeftOut spec retired e)).Nodup :=
    (List.filter_sublist.map _).nodup hrendered
  refine ⟨rendered.filter fun e => !isLeftOut spec retired e, ?_,
    ⟨Settings.distinct_of_nodup_keys hnodup htext, ?_⟩, ?_⟩
  · simp only [rawSettings, render_freezeEntries hs, hrender]
    exact foldlM_isDefault hr hrendered
  · obtain ⟨again, hagain, hperm⟩ := resolveSection_perm hc hs hn hnodup
      (fun e he => hreads.exists_of_mem_left (List.mem_of_mem_filter he))
      (fun field hf hm => exists_converts_of_isMissing hc hs hr hreads hrendered hf hm)
      (fun f hf => mem_keys_or_isMissing hreads hrendered hf)
    exact ⟨again, hagain, hperm, hn⟩
  · intro hd key hkey
    rw [Bool.eq_false_iff, Ne, Settings.has_iff_mem_keys]
    intro hm
    obtain ⟨f, hf, hfk⟩ := List.mem_map.mp hm
    obtain ⟨hf, hl⟩ := List.mem_filter.mp hf
    obtain ⟨e, he, hef⟩ := (Except.mapM_eq_ok_iff.mp hrender).exists_of_mem_right hf
    rw [isLeftOut_of_atDefault hs hn hr hd hef he hkey ((renderEntry_fst hef).trans hfk)] at hl
    cases hl

end Stanza.Dump
