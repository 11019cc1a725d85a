import Stanza.Proofs.Schema.Catalogue
import Stanza.Proofs.Schema.Stages

/-! # Sections written and resolved again

A resolved section is `Sound`: each of its settings has a field on either side and a settled value, and no
default is missing. So every setting has a raw form, the raw section is resolved without a warning, and there is
nothing to fill in. The result differs from the first one only in lists with a mark in one of their texts.
-/
namespace Stanza.Schema

/-- What resolution makes of raw settings: settled values of known fields, with nothing left to fill in. -/
structure Sound (spec : SectionSpec) (out : Settings) : Prop where
  settled : ∀ e ∈ out, ∃ name field, e.1 = .text name ∧ spec.incoming.declares name = true ∧
    spec.outgoing.get? name = some field ∧ Settled field e.2
  complete : ∀ name ∈ requiredNames spec.outgoing, out.has name = true
  filled : ∀ field ∈ spec.incoming.fields, field.default.value.isNull = false → out.has field.name = true

variable {spec : SectionSpec} {raw out : Settings}

theorem Sound.textKeys (hs : Sound spec out) : Settings.TextKeys out := by
  intro k hk
  obtain ⟨e, he, rfl⟩ := List.mem_map.mp hk
  obtain ⟨name, _, hname, _⟩ := hs.settled e he
  exact ⟨name, hname⟩

theorem Sound.settled_of_get? (hs : Sound spec out) {name : String} {field : Outgoing} {v : Value}
    (hg : spec.outgoing.get? name = some field) (hv : out.get? name = some v) : Settled field v := by
  obtain ⟨_, other, hname, _, hg', hset⟩ := hs.settled _ (Settings.mem_of_get? hv)
  cases hname
  rw [hg] at hg'
  cases hg'
  exact hset

theorem Sound.fits (hc : Coherent spec) (hs : Sound spec out) : Fits spec.outgoing out where
  declared := by
    intro key hk
    obtain ⟨e, he, rfl⟩ := List.mem_map.mp hk
    obtain ⟨name, field, hname, _, hg, _⟩ := hs.settled e he
    exact Spec.declaresKey_iff.mpr ⟨name, hname, field, hg⟩
  complete := hs.complete
  kinds := by
    intro field hf value hv
    exact (hs.settled_of_get? (Spec.get?_of_mem hc.nodup_outgoing hf) hv).isKind

theorem Sound.set (hs : Sound spec out) {name : String} {field : Outgoing} {v : Value}
    (hd : spec.incoming.declares name = true) (hg : spec.outgoing.get? name = some field) (hv : Settled field v) :
    Sound spec (out.set name v) where
  settled := by
    intro e he
    rcases Settings.mem_of_mem_set he with he | rfl
    · exact hs.settled e he
    · exact ⟨name, field, rfl, hd, hg, hv⟩
  complete := by
    intro other ho
    rw [Settings.has_set, hs.complete other ho, Bool.or_true]
  filled := by
    intro other ho hn
    rw [Settings.has_set, hs.filled other ho hn, Bool.or_true]

theorem settled_of_converts (hc : Coherent spec)
    (h : List.Forall₂ (Converts spec.outgoing) (fillDefaults spec.incoming (spec.incoming.stripUnknown raw)) out) :
    ∀ f ∈ out, ∃ name field, f.1 = .text name ∧ spec.incoming.declares name = true ∧
      spec.outgoing.get? name = some field ∧ Settled field f.2 := by
  intro f hf
  obtain ⟨e, he, hk, hv⟩ := h.exists_of_mem_right hf
  obtain ⟨incoming, hi, hname⟩ : ∃ incoming ∈ spec.incoming.fields, e.1 = .text incoming.name := by
    rcases mem_fillDefaults hc.nodup_incoming he with he | ⟨incoming, hi, _, rfl⟩
    · obtain ⟨name, hname, field, hg⟩ := Spec.declaresKey_iff.mp (List.mem_filter.mp he).2
      obtain ⟨hmem, rfl⟩ := Spec.get?_eq_some hg
      exact ⟨field, hmem, hname⟩
    · exact ⟨incoming, hi, rfl⟩
  obtain ⟨field, hg, _⟩ := hc.exists_agrees hi
  refine ⟨incoming.name, field, hk ▸ hname, Spec.declares_of_mem hi, hg, ?_⟩
  rw [hname] at hv
  simp only [fieldOf?, hg] at hv
  exact settled_of_convert hv

theorem filled_of_converts (hc : Coherent spec)
    (h : List.Forall₂ (Converts spec.outgoing) (fillDefaults spec.incoming (spec.incoming.stripUnknown raw)) out) :
    ∀ field ∈ spec.incoming.fields, field.default.value.isNull = false → out.has field.name = true := by
  intro field hf hn
  rw [Settings.has_iff_mem_keys, ← keys_of_converts h, ← Settings.has_iff_mem_keys]
  exact has_fillDefaults hc.nodup_incoming _ hf hn

theorem sound_of_resolveSection (hc : Coherent spec) {heading : String}
    (h : (resolveSection spec raw heading).result = .ok out) : Sound spec out := by
  obtain ⟨_, hconv, hfits⟩ := resolveSection_eq_ok_iff.mp h
  exact ⟨settled_of_converts hc hconv, hfits.complete, filled_of_converts hc hconv⟩

/-- A mapping is resolved to a mapping. -/
theorem nodup_keys_of_resolveSection (hd : raw.Distinct) {heading : String}
    (h : (resolveSection spec raw heading).result = .ok out) : (Settings.keys out).Nodup := by
  obtain ⟨_, hconv, _⟩ := resolveSection_eq_ok_iff.mp h
  rw [← keys_of_converts hconv]
  exact nodup_keys_fillDefaults (spec.incoming.nodup_keys_stripUnknown hd)

/-- No integer of a resolved section is longer than the ones it comes from. -/
theorem writable_of_resolveSection (hc : Coherent spec) (hr : ∀ e ∈ raw, e.2.Writable)
    (hd : ∀ field ∈ spec.incoming.fields, field.default.value.Writable) {heading : String}
    (h : (resolveSection spec raw heading).result = .ok out) : ∀ e ∈ out, e.2.Writable := by
  obtain ⟨_, hconv, _⟩ := resolveSection_eq_ok_iff.mp h
  intro f hf
  obtain ⟨e, he, hk, hv⟩ := hconv.exists_of_mem_right hf
  have hw : e.2.Writable := by
    rcases mem_fillDefaults hc.nodup_incoming he with he | ⟨incoming, hi, _, rfl⟩
    · exact hr e (List.mem_of_mem_filter he)
    · exact hd incoming hi
  split at hv
  · exact writable_of_convert hw hv
  · exact hv ▸ hw

/-! ## The second pass -/

def Reads (spec : SectionSpec) (e f : Value × Value) : Prop :=
  e.1 = f.1 ∧ ∃ name field s, f.1 = .text name ∧ spec.incoming.declares name = true ∧
    spec.outgoing.get? name = some field ∧ e.2 = .text s ∧ convert field (.text s) = .ok f.2

theorem Reads.converts {e f : Value × Value} (h : Reads spec e f) : Converts spec.outgoing e f := by
  obtain ⟨hk, name, field, s, hname, _, hg, hs, hc⟩ := h
  refine ⟨hk, ?_⟩
  rw [hk, hname, hs]
  simp only [fieldOf?, hg, hc]

theorem Reads.declaresKey {e f : Value × Value} (h : Reads spec e f) : spec.incoming.declaresKey e.1 = true := by
  obtain ⟨hk, name, _, _, hname, hd, _⟩ := h
  rw [hk, hname]
  exact hd

theorem unknownKeys_of_reads {kept : Settings} (h : List.Forall₂ (Reads spec) raw kept) :
    spec.incoming.unknownKeys raw = [] := by
  refine List.filter_eq_nil_iff.mpr fun k hk => ?_
  obtain ⟨e, he, rfl⟩ := List.mem_map.mp hk
  obtain ⟨f, _, hr⟩ := h.exists_of_mem_left he
  simp [hr.declaresKey]

theorem stripUnknown_of_reads {kept : Settings} (h : List.Forall₂ (Reads spec) raw kept) :
    spec.incoming.stripUnknown raw = raw := by
  refine List.filter_eq_self.mpr fun e he => ?_
  obtain ⟨f, _, hr⟩ := h.exists_of_mem_left he
  exact hr.declaresKey

theorem written_of_reads {kept : Settings} (h : List.Forall₂ (Reads spec) raw kept) : written raw = raw := by
  refine List.filter_eq_self.mpr fun e he => ?_
  obtain ⟨f, _, _, _, _, s, _, _, _, hs, _⟩ := h.exists_of_mem_left he
  rw [hs]
  rfl

theorem admitted_of_reads (hc : Coherent spec) {kept : Settings} (h : List.Forall₂ (Reads spec) raw kept)
    {field : Incoming} (hf : field ∈ spec.incoming.fields) : Admitted field (raw.get field.name) := by
  cases hv : raw.get? field.name with
  | none => simp [Admitted, Settings.get, hv, Value.isNull, hc.not_required hf]
  | some v =>
    obtain ⟨f, _, hk, name, out, s, hname, _, hg, hs, hconv⟩ := h.exists_of_mem_left (Settings.mem_of_get? hv)
    cases hk.trans hname
    obtain ⟨other, ho, ha⟩ := hc.exists_agrees hf
    rw [hg] at ho
    cases ho
    rw [Settings.get_of_get? hv, show v = .text s from hs]
    exact shapeProblem?_of_convert ha hconv

/-- What raw texts are resolved to, with what is filled in after them. -/
theorem resolveSection_of_reads (hc : Coherent spec) {kept added : Settings}
    (hr : List.Forall₂ (Reads spec) raw kept)
    (ha : List.Forall₂ (Converts spec.outgoing) ((spec.incoming.fields.filter (isMissing raw)).map defaultEntry) added)
    (hf : Fits spec.outgoing (kept ++ added)) (heading : String) :
    resolveSection spec raw heading = ⟨[], .ok (kept ++ added)⟩ := by
  refine Logged.eq_of_result ?_ ?_
  · rw [resolveSection_warnings, unknownKeys_of_reads hr, List.map_nil]
  · rw [resolveSection_eq_ok_iff, stripUnknown_of_reads hr, fillDefaults_eq hc.nodup_incoming, written_of_reads hr]
    exact ⟨fun _ hf => admitted_of_reads hc hr hf, List.rel_append (hr.imp fun _ _ => Reads.converts) ha, hf⟩

/-- The raw form of a sound section, and what it is read as. -/
theorem Sound.exists_reads (hs : Sound spec out) (hw : ∀ e ∈ out, e.2.Writable) :
    ∃ rendered again, render spec.outgoing out = .ok rendered ∧ List.Forall₂ (Reads spec) rendered again ∧
      List.Forall₂ (fun e f => e.1 = f.1 ∧ (f.2 = e.2 ↔ Separable e.2)) out again := by
  have hex : ∀ e ∈ out, ∃ p : (Value × Value) × (Value × Value),
      renderEntry spec.outgoing e = .ok p.1 ∧ Reads spec p.1 p.2 ∧ e.1 = p.2.1 ∧ (p.2.2 = e.2 ↔ Separable e.2) := by
    rintro ⟨key, v⟩ he
    obtain ⟨name, field, hname, hd, hg, hset⟩ := hs.settled _ he
    obtain ⟨s, again, hrender, hconv, hiff⟩ := hset.exists_raw (hw _ he)
    cases hname
    refine ⟨((.text name, .text s), (.text name, again)), ?_, ⟨rfl, name, field, s, rfl, hd, hg, rfl, hconv⟩, rfl, hiff⟩
    simp only [renderEntry, hg, hrender]
    rfl
  obtain ⟨ps, hps⟩ := List.exists_forall₂ hex
  refine ⟨ps.map (·.1), ps.map (·.2), ?_, ?_, ?_⟩
  · rw [render, Except.mapM_eq_ok_iff, List.forall₂_map_right_iff]
    exact hps.imp fun _ _ h => h.1
  · rw [List.forall₂_map_left_iff, List.forall₂_map_right_iff, List.forall₂_same]
    intro p hp
    obtain ⟨e, _, h⟩ := hps.exists_of_mem_right hp
    exact h.2.1
  · rw [List.forall₂_map_right_iff]
    exact hps.imp fun _ _ h => h.2.2

/-- The values that raw texts are read as are settled. -/
theorem sound_of_reads {kept : Settings} (hs : Sound spec out) (hr : List.Forall₂ (Reads spec) raw kept)
    (hk : Settings.keys kept = Settings.keys out) : Sound spec kept where
  settled := by
    intro f hf
    obtain ⟨e, _, _, name, field, s, hname, hd, hg, _, hconv⟩ := hr.exists_of_mem_right hf
    exact ⟨name, field, hname, hd, hg, settled_of_convert hconv⟩
  complete := by
    intro name hn
    rw [Settings.has_iff_mem_keys, hk, ← Settings.has_iff_mem_keys]
    exact hs.complete name hn
  filled := by
    intro field hf hd
    rw [Settings.has_iff_mem_keys, hk, ← Settings.has_iff_mem_keys]
    exact hs.filled field hf hd

/-- A section that comes from a sound one has nothing to fill in. -/
theorem filter_isMissing_eq_nil (hs : Sound spec out) (hk : Settings.keys raw = Settings.keys out) :
    spec.incoming.fields.filter (isMissing raw) = [] := by
  refine List.filter_eq_nil_iff.mpr fun field hf => ?_
  cases hd : field.default.value.isNull with
  | true => simp [isMissing, hd]
  | false =>
    have hh : raw.has field.name = true := by
      rw [Settings.has_iff_mem_keys, hk, ← Settings.has_iff_mem_keys]
      exact hs.filled field hf hd
    simp [isMissing, hh]

theorem keys_of_reads {kept : Settings} (h : List.Forall₂ (Reads spec) raw kept) :
    Settings.keys raw = Settings.keys kept :=
  keys_of_converts (h.imp fun _ _ => Reads.converts)

theorem Sound.perm {again : Settings} (hs : Sound spec out) (h : again.Perm out) : Sound spec again where
  settled e he := hs.settled e (h.mem_iff.mp he)
  complete name hn := by rw [Settings.has_perm h, hs.complete name hn]
  filled field hf hd := by rw [Settings.has_perm h, hs.filled field hf hd]

/-- Raw texts are resolved to a given section, up to the order of its settings, if each text is read as one of them
and the defaults give the others. -/
theorem resolveSection_perm (hc : Coherent spec) (hs : Sound spec out) (hn : (Settings.keys out).Nodup)
    (hraw : (Settings.keys raw).Nodup) (hread : ∀ e ∈ raw, ∃ f, f ∈ out ∧ Reads spec e f)
    (hfill : ∀ field ∈ spec.incoming.fields, isMissing raw field = true →
      ∃ f, f ∈ out ∧ Converts spec.outgoing (defaultEntry field) f)
    (hall : ∀ f ∈ out, f.1 ∈ Settings.keys raw ∨
      ∃ field ∈ spec.incoming.fields, isMissing raw field = true ∧ f.1 = .text field.name) :
    ∃ again, (∀ heading, resolveSection spec raw heading = ⟨[], .ok again⟩) ∧ again.Perm out := by
  obtain ⟨kept, hkept⟩ := List.exists_forall₂ hread
  have hmissing : ∀ e ∈ (spec.incoming.fields.filter (isMissing raw)).map defaultEntry,
      ∃ f, f ∈ out ∧ Converts spec.outgoing e f := by
    intro e he
    obtain ⟨field, hf, rfl⟩ := List.mem_map.mp he
    obtain ⟨hf, hm⟩ := List.mem_filter.mp hf
    exact hfill field hf hm
  obtain ⟨added, hadded⟩ := List.exists_forall₂ hmissing
  have hreads := hkept.imp fun _ _ h => h.2
  have hconverts := hadded.imp fun _ _ h => h.2
  have hkeys : Settings.keys (kept ++ added)
      = Settings.keys raw ++ Settings.keys ((spec.incoming.fields.filter (isMissing raw)).map defaultEntry) := by
    rw [keys_of_reads hreads, keys_of_converts hconverts, Settings.keys, List.map_append]
    rfl
  have hnodup : (Settings.keys (kept ++ added)).Nodup := by
    have hfilled := @nodup_keys_fillDefaults spec.incoming raw hraw
    rw [fillDefaults_eq hc.nodup_incoming, written_of_reads hreads, Settings.keys, List.map_append] at hfilled
    rw [hkeys]
    exact hfilled
  have hperm : (kept ++ added).Perm out := by
    refine Settings.perm_of_subset hnodup hn (fun f hf => ?_) (fun k hk => ?_)
    · rcases List.mem_append.mp hf with hf | hf
      · obtain ⟨_, _, h⟩ := hkept.exists_of_mem_right hf
        exact h.1
      · obtain ⟨_, _, h⟩ := hadded.exists_of_mem_right hf
        exact h.1
    · obtain ⟨f, hf, rfl⟩ := List.mem_map.mp hk
      rw [hkeys, List.mem_append]
      refine (hall f hf).imp_right fun hfilled => ?_
      obtain ⟨field, hfield, hm, hname⟩ := hfilled
      rw [hname]
      exact List.mem_map.mpr ⟨_, List.mem_map_of_mem (List.mem_filter.mpr ⟨hfield, hm⟩), rfl⟩
  exact ⟨_, resolveSection_of_reads hc hreads hconverts ((hs.perm hperm).fits hc), hperm⟩

/-! ## The round trip -/

/-- No text of a list of texts holds a comma or a semicolon. -/
def Separated (spec : Spec Outgoing) (out : Settings) : Prop :=
  ∀ field ∈ spec.fields, field.kind = .texts → ∀ items, out.get? field.name = some (.list items) →
    ∀ s, Value.text s ∈ items → ',' ∉ s.toList ∧ ';' ∉ s.toList

theorem keepsTogether_iff {s : String} : KeepsTogether s ↔ ',' ∉ s.toList ∧ ';' ∉ s.toList := by
  simp only [KeepsTogether, isMark, Bool.or_eq_false_iff, beq_eq_false_iff_ne]
  constructor
  · exact fun h => ⟨fun hm => (h _ hm).1 rfl, fun hm => (h _ hm).2 rfl⟩
  · rintro ⟨h1, h2⟩ c hc
    exact ⟨fun he => h1 (he ▸ hc), fun he => h2 (he ▸ hc)⟩

theorem Sound.separated_iff (hs : Sound spec out) :
    Separated spec.outgoing out ↔ ∀ name v, out.get? name = some v → Separable v := by
  constructor
  · intro h name v hv
    obtain ⟨_, field, hname, _, hg, hset⟩ := hs.settled _ (Settings.mem_of_get? hv)
    cases hname
    obtain ⟨hf, rfl⟩ := Spec.get?_eq_some hg
    cases hset with
    | texts hk hp => exact fun s hm => keepsTogether_iff.mpr (h field hf hk _ hv s hm)
    | _ => trivial
  · intro h field _ _ items hv s hm
    exact keepsTogether_iff.mp (h field.name _ hv s hm)

/-- A sound section and one that differs from it in the values of lists with marks. -/
theorem Sound.same_iff {again : Settings} (hs : Sound spec out) (ha : Sound spec again)
    (hn : (Settings.keys out).Nodup) (hk : Settings.keys again = Settings.keys out)
    (h : List.Forall₂ (fun e f => e.1 = f.1 ∧ (f.2 = e.2 ↔ Separable e.2)) out again) :
    (Value.map again).same (.map out) = true ↔ ∀ name v, out.get? name = some v → Separable v := by
  have hpair : ∀ name v w, again.get? name = some v → out.get? name = some w → (v.same w = true ↔ Separable w) := by
    intro name v w hv hw
    obtain ⟨e, he, hek, hiff⟩ := h.exists_of_mem_right (Settings.mem_of_get? hv)
    obtain ⟨_, field, hname, _, hg, hset⟩ := ha.settled _ (Settings.mem_of_get? hv)
    cases hname
    have hew : e.2 = w := by
      have hmem : (.text name, e.2) ∈ out := (Prod.ext hek rfl : e = (.text name, e.2)) ▸ he
      exact Option.some.inj ((Settings.get?_of_mem hn hmem).symm.trans hw)
    rw [hset.same_iff (hs.settled_of_get? hg hw), ← hew]
    exact hiff
  rw [Settings.same_map_iff hk hn hs.textKeys]
  constructor
  · intro hall name w hw
    obtain ⟨v, hv⟩ : ∃ v, again.get? name = some v := by
      rw [← Settings.has_iff_get?, Settings.has_iff_mem_keys, hk, ← Settings.has_iff_mem_keys, Settings.has_iff_get?]
      exact ⟨w, hw⟩
    exact (hpair name v w hv hw).mp (hall name v w hv hw)
  · exact fun hall name v w hv hw => (hpair name v w hv hw).mpr (hall name w hw)

/-- The raw form of a resolved section is resolved without a warning, to the same section exactly if no text of a
list holds a comma or a semicolon. -/
theorem resolveSection_render {host : Host} (hcpus : Text.Writable host.cpus) (hmemory : Text.Writable host.memory)
    (hspec : spec ∈ shipped host) (hd : raw.Distinct) (hr : ∀ e ∈ raw, e.2.Writable) {heading : String}
    (h : (resolveSection spec raw heading).result = .ok out) (later : String) :
    ∃ rendered again, render spec.outgoing out = .ok rendered ∧
      resolveSection spec rendered later = ⟨[], .ok again⟩ ∧
      ((Value.map again).same (.map out) = true ↔ Separated spec.outgoing out) := by
  have hc := coherent_of_mem_shipped hspec
  have hs := sound_of_resolveSection hc h
  have hw := writable_of_resolveSection hc hr (writable_default hcpus hmemory hspec) h
  obtain ⟨rendered, again, hrender, hreads, hpairs⟩ := hs.exists_reads hw
  have hkeys : Settings.keys again = Settings.keys out :=
    (Settings.keys_eq_of_forall₂ (hpairs.imp fun _ _ h => h.1)).symm
  have ha := sound_of_reads hs hreads hkeys
  refine ⟨rendered, again, hrender, ?_, ?_⟩
  · have hadded : List.Forall₂ (Converts spec.outgoing)
        ((spec.incoming.fields.filter (isMissing rendered)).map defaultEntry) [] := by
      -- whatever has a default was filled in the first time, and is written
      rw [filter_isMissing_eq_nil hs ((keys_of_reads hreads).trans hkeys)]
      exact .nil
    have hfits : Fits spec.outgoing (again ++ []) := by
      rw [List.append_nil]
      exact ha.fits hc
    have hagain := resolveSection_of_reads hc hreads hadded hfits later
    rwa [List.append_nil] at hagain
  · rw [hs.separated_iff]
    exact hs.same_iff ha (nodup_keys_of_resolveSection hd h) hkeys hpairs

/-- A list given as a list may hold a comma, and is then not found again. -/
theorem resolveSection_render_comma :
    ∃ out rendered again,
      (resolveSection database [(.text "facts-blacklist", .list [.text "a,b"])] "").result = .ok out ∧
      render database.outgoing out = .ok rendered ∧ resolveSection database rendered "" = ⟨[], .ok again⟩ ∧
      (Value.map again).same (.map out) = false := by
  obtain ⟨out, h, hlist⟩ : ∃ out,
      (resolveSection database [(.text "facts-blacklist", .list [.text "a,b"])] "").result = .ok out ∧
      out.get? "facts-blacklist" = some (.list [.text "a,b"]) := ⟨_, rfl, rfl⟩
  obtain ⟨rendered, again, hrender, hagain, hiff⟩ := resolveSection_render
    (by decide : Text.Writable (Host.mk 4 8192).cpus) (by decide : Text.Writable (Host.mk 4 8192).memory)
    (by simp [shipped]) (by decide) (by decide) h ""
  refine ⟨out, rendered, again, h, hrender, hagain, Bool.eq_false_iff.mpr fun hsame => ?_⟩
  have hf : optional "facts-blacklist" .texts ∈ database.outgoing.fields := by simp [database, databaseOut]
  exact (hiff.mp hsame _ hf rfl _ hlist "a,b" (by simp)).1 (by decide)

end Stanza.Schema
