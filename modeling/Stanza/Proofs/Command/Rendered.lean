import Stanza.Proofs.Config.Reload
import Stanza.Proofs.Redaction.Dump
import Stanza.Proofs.Time.PeriodLength
import Stanza.Proofs.Value.Rendered

/-! # Configurations that can be rendered

What is shown of a configuration as JSON or as an INI file is there if the values that are left after redaction can be
rendered, and the sections that were resolved can be written.
-/
namespace Stanza

open Value

/-! ## Redaction -/

namespace Redaction

variable {P : Value → Prop} {v : Value}

/-- Only the mark is new. -/
theorem forall_leaves_redactValue (hmark : P (.text mark)) (h : ∀ x ∈ v.leaves, P x) :
    ∀ x ∈ (redactValue v).leaves, P x := by
  induction v using Value.induction with
  | atom v hv => rwa [redactValue_of_isAtom hv]
  | list items ih | tuple items ih =>
    have hitems := forall_leaves_list.mp h
    rw [redactValue, redactItems_eq_map, forall_leaves_list, List.forall_mem_map]
    exact fun x hx => ih x hx (hitems x hx)
  | map es ih =>
    rw [forall_leaves_map] at h
    rw [redactValue, redactEntries_eq_map, forall_leaves_map, List.forall_mem_map]
    intro e he
    obtain ⟨hkey, hvalue⟩ := h e he
    rcases redactEntry_cases e with hr | hr
    · rw [hr]
      exact ⟨hkey, List.forall_mem_singleton.mpr hmark⟩
    · rw [hr]
      exact ⟨hkey, (ih e he).2 hvalue⟩

theorem forall_innerKeys_redactValue (h : ∀ k ∈ v.innerKeys, P k) : ∀ k ∈ (redactValue v).innerKeys, P k := by
  induction v using Value.induction with
  | atom v hv => rwa [redactValue_of_isAtom hv]
  | list items ih | tuple items ih =>
    have hitems := forall_innerKeys_list.mp h
    rw [redactValue, redactItems_eq_map, forall_innerKeys_list, List.forall_mem_map]
    exact fun x hx => ih x hx (hitems x hx)
  | map es ih =>
    rw [forall_innerKeys_map] at h
    rw [redactValue, redactEntries_eq_map, forall_innerKeys_map, List.forall_mem_map]
    intro e he
    obtain ⟨hkey, hvalue⟩ := h e he
    rcases redactEntry_cases e with hr | hr
    · rw [hr]
      exact ⟨hkey, fun _ hk => absurd hk List.not_mem_nil⟩
    · rw [hr]
      exact ⟨hkey, (ih e he).2 hvalue⟩

end Redaction

namespace Dump

open Redaction Schema

/-! ## Plain values -/

/-- At the end of a value, what has a plain form that a file could hold. -/
def Presentable : Value → Prop
  | .span s => 0 ≤ s.micros
  | .period p => p.Writable
  | .path _ => False
  | _ => True

theorem presentable_of_isScalar {v : Value} (h : v.isScalar = true) : Presentable v := by
  cases v with
  | span _ | period _ | path _ => cases h
  | _ => trivial

theorem plainItems_eq_mapM (items : List Value) : plainItems items = items.mapM plain := by
  induction items with
  | nil => rfl
  | cons x xs ih => rw [plainItems, ih, List.mapM_cons]

theorem plainEntries_eq_mapM (es : Settings) : plainEntries es = es.mapM fun e => do
    let name ← digits e.1.display
    let value ← plain e.2
    return (.text name, value) := by
  induction es with
  | nil => rfl
  | cons e es ih => simp only [plainEntries, ih, List.mapM_cons, bind_assoc, pure_bind]

theorem writable_ofMillis (n : Nat) (h : n < 10 ^ 20) : (Period.ofMillis n).Writable := by
  have hle : ∀ m : Nat, m ≤ n → Text.Writable m := by
    intro m hm
    have hn : Text.Writable n := by
      have hl : (Nat.toDigits 10 n).length ≤ 20 := (Nat.length_toDigits_le_iff (by decide) (by decide)).mpr h
      exact hl.trans (by decide)
    exact hn.of_le (by simpa using hm)
  intro u
  refine hle _ ?_
  cases u <;> simp only [Period.ofMillis, Period.get] <;> omega

theorem exists_plain_period {p : Period} (h : p.Writable) : ∃ shown, plain (.period p) = .ok (.text shown) := by
  obtain ⟨shown, hs⟩ : p.write.Succeeds := ⟨_, Period.write_eq h⟩
  refine ⟨shown, ?_⟩
  rw [plain, hs]
  rfl

/-- A span that is not negative is a period, short enough to be written. -/
theorem exists_plain_span {s : Span} (h : 0 ≤ s.micros) : ∃ shown, plain (.span s) = .ok (.text shown) := by
  have hlt := s.natAbs_micros_lt
  have hw : (Period.ofMillis (s.micros.toNat / 1000)).Writable := writable_ofMillis _ (by omega)
  have hperiod : Period.ofSpan? s = some (Period.ofMillis (s.micros.toNat / 1000)) := Period.ofSpan?_of_nonneg h
  obtain ⟨shown, hs⟩ := exists_plain_period hw
  refine ⟨shown, ?_⟩
  simp only [plain, hperiod] at hs ⊢
  exact hs

/-- At the end of a value stands nothing but scalars in its plain form. -/
theorem exists_plain_atom {v : Value} (ha : v.isAtom = true) (h : Presentable v) :
    ∃ shown, plain v = .ok shown ∧ (shown = v ∨ ∃ s, shown = .text s) ∧ shown.isScalar = true := by
  cases v with
  | list _ | tuple _ | map _ => cases ha
  | path _ => exact h.elim
  | span s =>
    obtain ⟨shown, hs⟩ := exists_plain_span h
    exact ⟨_, hs, .inr ⟨shown, rfl⟩, rfl⟩
  | period p =>
    obtain ⟨shown, hs⟩ := exists_plain_period h
    exact ⟨_, hs, .inr ⟨shown, rfl⟩, rfl⟩
  | _ => exact ⟨_, rfl, .inl rfl, rfl⟩

variable {v : Value}

theorem succeeds_plain_list_iff {items : List Value} : (plain (.list items)).Succeeds ↔ ∀ x ∈ items, (plain x).Succeeds := by
  refine Except.succeeds_map_iff.trans ?_
  rw [plainItems_eq_mapM]
  exact Except.succeeds_mapM_iff

theorem succeeds_plain_map_iff {es : Settings} :
    (plain (.map es)).Succeeds ↔ ∀ e ∈ es, e.1.display.Succeeds ∧ (plain e.2).Succeeds := by
  refine Except.succeeds_map_iff.trans ?_
  rw [plainEntries_eq_mapM, Except.succeeds_mapM_iff]
  refine forall₂_congr fun e _ => ?_
  rw [← succeeds_digits_iff (x := e.1.display)]
  exact Except.succeeds_bind_iff fun _ _ => Except.succeeds_map_iff

/-- The keys alone can keep a value from having a plain form. -/
theorem succeeds_plain_iff (h : ∀ x ∈ v.leaves, Presentable x) :
    (plain v).Succeeds ↔ ∀ k ∈ v.innerKeys, k.display.Succeeds := by
  induction v using Value.induction with
  | atom v hv =>
    obtain ⟨shown, hs, _⟩ := exists_plain_atom hv ((forall_leaves_atom hv).mp h)
    rw [innerKeys_of_isAtom hv]
    exact iff_of_true ⟨shown, hs⟩ fun _ hk => absurd hk List.not_mem_nil
  | list items ih | tuple items ih =>
    have hitems := forall_leaves_list.mp h
    exact succeeds_plain_list_iff.trans
      ((forall₂_congr fun x hx => ih x hx (hitems x hx)).trans forall_innerKeys_list.symm)
  | map es ih =>
    rw [forall_leaves_map] at h
    rw [succeeds_plain_map_iff, forall_innerKeys_map]
    exact forall₂_congr fun e he => and_congr_right fun _ => (ih e he).2 (h e he).2

theorem plainEntries_eq_ok {es shown : Settings} (h : plainEntries es = .ok shown) :
    ∀ f ∈ shown, ∃ e ∈ es, ∃ name, f.1 = .text name ∧ plain e.2 = .ok f.2 := by
  rw [plainEntries_eq_mapM] at h
  intro f hf
  obtain ⟨e, he, hf⟩ := (Except.mapM_eq_ok_iff.mp h).exists_of_mem_right hf
  obtain ⟨name, _, hf⟩ := Except.bind_eq_ok_iff.mp hf
  obtain ⟨value, hvalue, hf⟩ := Except.bind_eq_ok_iff.mp hf
  cases hf
  exact ⟨e, he, name, rfl, hvalue⟩

theorem plainItems_eq_ok {items shown : List Value} (h : plainItems items = .ok shown) :
    ∀ y ∈ shown, ∃ x ∈ items, plain x = .ok y := by
  rw [plainItems_eq_mapM] at h
  exact fun y hy => (Except.mapM_eq_ok_iff.mp h).exists_of_mem_right hy

/-- What holds of texts and of the scalars of a value holds throughout its plain form, which ends in scalars. -/
theorem forall_leaves_plain {P : Value → Prop} (htext : ∀ s, P (.text s)) (hp : ∀ x ∈ v.leaves, Presentable x)
    (h : ∀ x ∈ v.leaves, P x) {shown : Value} (hs : plain v = .ok shown) :
    ∀ x ∈ shown.leaves, x.isScalar = true ∧ P x := by
  induction v using Value.induction generalizing shown with
  | atom v hv =>
    obtain ⟨other, ho, hcases, hscalar⟩ := exists_plain_atom hv ((forall_leaves_atom hv).mp hp)
    cases hs.symm.trans ho
    rw [forall_leaves_atom (isAtom_of_isScalar hscalar)]
    refine ⟨hscalar, ?_⟩
    obtain rfl | ⟨s, rfl⟩ := hcases
    · exact (forall_leaves_atom hv).mp h
    · exact htext s
  | list items ih | tuple items ih =>
    have hpresentable := forall_leaves_list.mp hp
    have hitems := forall_leaves_list.mp h
    obtain ⟨parts, hparts, rfl⟩ := Except.map_eq_ok_iff.mp hs
    refine forall_leaves_list.mpr fun y hy => ?_
    obtain ⟨x, hx, hxy⟩ := plainItems_eq_ok hparts y hy
    exact ih x hx (hpresentable x hx) (hitems x hx) hxy
  | map es ih =>
    rw [forall_leaves_map] at hp h
    obtain ⟨parts, hparts, rfl⟩ := Except.map_eq_ok_iff.mp hs
    refine forall_leaves_ofPairs (forall_leaves_map.mpr fun f hf => ?_)
    obtain ⟨e, he, name, hname, hvalue⟩ := plainEntries_eq_ok hparts f hf
    rw [hname]
    exact ⟨List.forall_mem_singleton.mpr ⟨rfl, htext name⟩, (ih e he).2 (hp e he).2 (h e he).2 hvalue⟩

theorem isText_of_mem_innerKeys_plain (hp : ∀ x ∈ v.leaves, Presentable x) {shown : Value} (hs : plain v = .ok shown) :
    ∀ k ∈ shown.innerKeys, k.isText = true := by
  induction v using Value.induction generalizing shown with
  | atom v hv =>
    obtain ⟨other, ho, _, hscalar⟩ := exists_plain_atom hv ((forall_leaves_atom hv).mp hp)
    cases hs.symm.trans ho
    rw [innerKeys_of_isAtom (isAtom_of_isScalar hscalar)]
    exact fun _ hk => absurd hk List.not_mem_nil
  | list items ih | tuple items ih =>
    have hpresentable := forall_leaves_list.mp hp
    obtain ⟨parts, hparts, rfl⟩ := Except.map_eq_ok_iff.mp hs
    refine forall_innerKeys_list.mpr fun y hy => ?_
    obtain ⟨x, hx, hxy⟩ := plainItems_eq_ok hparts y hy
    exact ih x hx (hpresentable x hx) hxy
  | map es ih =>
    rw [forall_leaves_map] at hp
    obtain ⟨parts, hparts, rfl⟩ := Except.map_eq_ok_iff.mp hs
    refine forall_innerKeys_ofPairs (forall_innerKeys_map.mpr fun f hf => ?_)
    obtain ⟨e, he, name, hname, hvalue⟩ := plainEntries_eq_ok hparts f hf
    rw [hname]
    exact ⟨rfl, (ih e he).2 (hp e he).2 hvalue⟩

/-! ## JSON -/

/-- What the plain form of a mapping is redacted to ends in scalars, under texts. -/
theorem succeeds_write_redact {es : Settings} (hp : ∀ x ∈ (Value.map es).leaves, Presentable x) {shown : Value}
    (hs : plain (.map es) = .ok shown) {style : Json.Style} {depth : Nat} :
    (Json.write style depth (redact shown)).Succeeds ↔ ∀ x ∈ (redact shown).leaves, Json.Form x := by
  have hleaves : ∀ x ∈ shown.leaves, x.isScalar = true := fun x hx =>
    (forall_leaves_plain (fun _ => trivial) hp (fun _ _ => trivial) hs x hx).1
  have hkeys := isText_of_mem_innerKeys_plain hp hs
  obtain ⟨parts, _, rfl⟩ := Except.map_eq_ok_iff.mp hs
  have hredact : redact (.map (Settings.ofPairs parts)) = redactValue (.map (Settings.ofPairs parts)) := rfl
  rw [Function.comp_apply, hredact]
  exact Json.succeeds_write_iff (forall_innerKeys_redactValue hkeys) (forall_leaves_redactValue rfl hleaves)

/-- A configuration has a JSON form if its keys have texts and what is left after redaction has a JSON form. -/
theorem succeeds_json_iff {c : Config} (hp : ∀ x ∈ (Value.map c.copy).leaves, Presentable x) :
    (json c).Succeeds ↔ (∀ k ∈ (Value.map c.copy).innerKeys, k.display.Succeeds) ∧
      ∀ shown, plain (.map c.copy) = .ok shown → ∀ x ∈ (redact shown).leaves, Json.Form x := by
  rw [← succeeds_plain_iff hp]
  refine Except.succeeds_bind_iff fun shown hs => ?_
  refine Except.succeeds_map_iff.trans ((succeeds_write_redact hp hs).trans ?_)
  constructor
  · intro h other ho
    cases hs.symm.trans ho
    exact h
  · exact fun h => h shown hs

/-! ## INI -/

theorem succeeds_iniValue_iff (h : ∀ x ∈ v.leaves, x.isScalar = true) :
    (iniValue v).Succeeds ↔ ∀ x ∈ v.leaves, x.Writable := by
  cases v with
  | bool b => exact iff_of_true (Except.succeeds_ok _) (List.forall_mem_singleton.mpr trivial)
  | list items =>
    rw [forall_leaves_list] at h ⊢
    refine Except.succeeds_map_iff.trans (Except.succeeds_mapM_iff.trans (forall₂_congr fun x hx => ?_))
    exact succeeds_digits_iff.trans (succeeds_display_iff (h x hx))
  | _ => exact succeeds_digits_iff.trans (succeeds_display_iff h)

theorem succeeds_iniSection_iff {header : String} {settings : Settings}
    (h : ∀ x ∈ (Value.map settings).leaves, x.isScalar = true) :
    (iniSection header settings).Succeeds ↔ ∀ x ∈ (Value.map settings).leaves, x.Writable := by
  rw [forall_leaves_map] at h ⊢
  refine Except.succeeds_map_iff.trans (Except.succeeds_mapM_iff.trans (forall₂_congr fun e he => ?_))
  rw [← succeeds_display_iff (h e he).1, ← succeeds_iniValue_iff (h e he).2, ← succeeds_digits_iff (x := e.1.display)]
  exact Except.succeeds_bind_iff fun _ _ => Except.succeeds_map_iff

def Headed (es : Settings) : Prop := ∀ e ∈ es, e.1.isText = true ∧ e.2.isMap = true

theorem succeeds_ini_iff {shown : Settings} (hh : Headed shown) (h : ∀ x ∈ (Value.map shown).leaves, x.isScalar = true) :
    (ini shown).Succeeds ↔ ∀ x ∈ (Value.map shown).leaves, x.Writable := by
  rw [forall_leaves_map] at h ⊢
  refine Except.succeeds_map_iff.trans (Except.succeeds_mapM_iff.trans (forall₂_congr fun e he => ?_))
  obtain ⟨htext, hmap⟩ := hh e he
  rcases e with ⟨key, contents⟩
  cases key with
  | text name =>
    cases contents with
    | map settings =>
      have hkey : ∀ x ∈ (Value.text name).leaves, x.Writable := List.forall_mem_singleton.mpr trivial
      exact (succeeds_iniSection_iff (h _ he).2).trans (and_iff_right hkey).symm
    | _ => cases hmap
  | _ => cases htext

/-- Redacted sections, as they go into an INI file. -/
theorem succeeds_text_iff {c : Config} {host : Host} (hh : ∀ es, sections c host = .ok es → Headed es)
    (h : ∀ es, sections c host = .ok es → ∀ x ∈ (Value.map es).leaves, x.isScalar = true) :
    (text c host).Succeeds ↔ (sections c host).Succeeds ∧
      ∀ es, sections c host = .ok es → ∀ x ∈ (redact (.map (Settings.ofPairs es))).leaves, x.Writable := by
  refine Except.succeeds_bind_iff fun es hs => ?_
  have hleaves := forall_leaves_redactValue (P := fun x => x.isScalar = true) rfl (forall_leaves_ofPairs (h es hs))
  have hheaded : Headed (redactEntries (Settings.ofPairs es)) := by
    have hpairs := Settings.forall_mem_ofPairs (P := fun k => k.isText = true) (Q := fun v => v.isMap = true) (hh es hs)
    rw [redactEntries_eq_map]
    refine List.forall_mem_map.mpr fun e he => ?_
    obtain ⟨htext, hmap⟩ := hpairs e he
    rcases e with ⟨key, contents⟩
    cases contents with
    | map settings =>
      rw [redactEntry_map]
      exact ⟨htext, rfl⟩
    | _ => cases hmap
  refine (succeeds_ini_iff hheaded hleaves).trans ?_
  constructor
  · intro h other ho
    cases hs.symm.trans ho
    exact h
  · exact fun h => h es hs

/-! ## Sections -/

variable {spec : SectionSpec} {retired : List String} {settings raw : Settings}

/-- A section as resolution leaves it in a configuration. -/
def IsResolved (spec : SectionSpec) (settings : Settings) : Prop := ∃ out, Sound spec out ∧ settings = freezeEntries out

theorem succeeds_renderEntry_iff {out : Settings} (hs : Sound spec out) {e : Value × Value} (he : e ∈ out) :
    (renderEntry spec.outgoing e).Succeeds ↔ e.2.Writable := by
  obtain ⟨name, field, hname, _, hg, hset⟩ := hs.settled e he
  rcases e with ⟨key, v⟩
  cases hname
  simp only [renderEntry, hg]
  refine Except.succeeds_map_iff.trans ?_
  constructor
  · intro h
    cases v with
    | int n =>
      cases hset with
      | integer hk _ =>
        rw [hk] at h
        exact Text.succeeds_writeInteger_iff.mp (Except.succeeds_map_iff.mp h)
    | _ => trivial
  · intro hw
    obtain ⟨s, _, hrender, _⟩ := hset.exists_raw hw
    exact ⟨_, hrender⟩

/-- A section can be written if its integers can. -/
theorem succeeds_rawSettings_iff (h : IsResolved spec settings) (hr : ∀ key ∈ retired, restorable spec key = true) :
    (rawSettings spec settings retired).Succeeds ↔ ∀ e ∈ settings, e.2.Writable := by
  obtain ⟨out, hs, rfl⟩ := h
  have hwritable : (∀ e ∈ freezeEntries out, e.2.Writable) ↔ ∀ e ∈ out, e.2.Writable := by
    rw [freezeEntries_eq_map, List.forall_mem_map]
    refine forall₂_congr fun e _ => ?_
    cases e.2 <;> exact Iff.rfl
  have hrender : (render spec.outgoing (freezeEntries out)).Succeeds ↔ ∀ e ∈ out, e.2.Writable := by
    rw [render_freezeEntries hs, render, Except.succeeds_mapM_iff]
    exact forall₂_congr fun e he => succeeds_renderEntry_iff hs he
  rw [hwritable, ← hrender, ← succeeds_digits_iff (x := render _ _)]
  refine (Except.succeeds_bind_iff fun rendered _ => iff_of_true ?_ trivial).trans (and_iff_left trivial)
  refine Except.succeeds_foldlM (fun key hkey raw => ?_) rendered
  rw [isDefault_eq (hr key hkey)]
  exact Except.succeeds_ok _

def Textual (settings : Settings) : Prop := ∀ e ∈ settings, e.1.isText = true ∧ e.2.isText = true

theorem textual_rawSettings (h : IsResolved spec settings) (hraw : rawSettings spec settings retired = .ok raw) :
    Textual raw := by
  obtain ⟨out, hs, rfl⟩ := h
  obtain ⟨rendered, hrender, hfold⟩ := Except.bind_eq_ok_iff.mp hraw
  have hrendered : Textual rendered := by
    have hentries := Except.mapError_eq_ok_iff.mp hrender
    rw [render_freezeEntries hs] at hentries
    intro f hf
    obtain ⟨e, he, hentry⟩ := (Except.mapM_eq_ok_iff.mp hentries).exists_of_mem_right hf
    obtain ⟨name, field, hname, _, hg, hset⟩ := hs.settled e he
    obtain ⟨s, _, htext, _⟩ := hset.exists_raw ((succeeds_renderEntry_iff hs he).mp ⟨f, hentry⟩)
    rcases e with ⟨key, v⟩
    cases hname
    simp only [renderEntry, hg, htext] at hentry
    cases hentry
    exact ⟨rfl, rfl⟩
  refine Except.of_foldlM (P := Textual) (fun key _ b c hb hc => ?_) hrendered hfold
  obtain ⟨_, _, hc⟩ := Except.bind_eq_ok_iff.mp hc
  cases hc
  split
  · exact fun e he => hb e (List.mem_of_mem_filter he)
  · exact hb

structure AllResolved (c : Config) (host : Host) : Prop where
  profiles : ∀ e ∈ c.profiles.toList, IsResolved writeDatabase e.2
  readProfile : IsResolved Schema.database c.readProfile
  commandProcessing : IsResolved (Schema.commandProcessing host) c.commandProcessing
  puppetdb : IsResolved Schema.puppetdb c.puppetdb
  developer : IsResolved Schema.developer c.developer

variable {c : Config} {host : Host} {es : Settings}

theorem succeeds_sections_iff (h : AllResolved c host) :
    (sections c host).Succeeds ↔ ∀ settings ∈ c.blocks, ∀ e ∈ settings, e.2.Writable := by
  have hprofiles : (∀ e ∈ c.profiles.toList, (rawSettings writeDatabase e.2 Retirement.databaseKeys).Succeeds) ↔
      ∀ e ∈ c.profiles.toList, ∀ f ∈ e.2, f.2.Writable :=
    forall₂_congr fun e he => succeeds_rawSettings_iff (h.profiles e he) restorable_writeDatabase
  have hnone : ∀ spec : SectionSpec, ∀ key ∈ ([] : List String), restorable spec key = true :=
    fun _ _ hk => absurd hk List.not_mem_nil
  rw [Config.blocks]
  simp only [List.forall_mem_append, List.forall_mem_cons, List.forall_mem_map, List.not_mem_nil, false_imp_iff,
    implies_true, and_true]
  rw [← hprofiles, ← succeeds_rawSettings_iff h.readProfile restorable_database,
    ← succeeds_rawSettings_iff h.commandProcessing (restorable_commandProcessing host),
    ← succeeds_rawSettings_iff h.puppetdb (hnone _), ← succeeds_rawSettings_iff h.developer (hnone _)]
  refine (Except.succeeds_bind_iff fun _ _ => Except.succeeds_bind_iff fun _ _ => Except.succeeds_bind_iff fun _ _ =>
    Except.succeeds_bind_iff fun _ _ => Except.succeeds_map_iff).trans (and_congr_left' ?_)
  exact Except.succeeds_mapM_iff.trans (forall₂_congr fun _ _ => Except.succeeds_map_iff)

def IsKept (c : Config) (key : String) : Prop := key = "global" ∨ .text key ∈ Settings.keys c.extra

/-- What is written out is a resolved section, in texts, or stands in the copy of the configuration. -/
theorem mem_sections (h : AllResolved c host) (hs : sections c host = .ok es) {e : Value × Value} (he : e ∈ es) :
    ∃ name settings, e = (.text name, .map settings) ∧
      (Textual settings ∨ ∃ key, IsKept c key ∧ c.copy.get? key = some (.map settings)) := by
  obtain ⟨profiles, hprofiles, hs⟩ := Except.bind_eq_ok_iff.mp hs
  obtain ⟨readProfile, hread, hs⟩ := Except.bind_eq_ok_iff.mp hs
  obtain ⟨commandProcessing, hcommands, hs⟩ := Except.bind_eq_ok_iff.mp hs
  obtain ⟨puppetdb, hpuppetdb, hs⟩ := Except.bind_eq_ok_iff.mp hs
  obtain ⟨developer, hdeveloper, hs⟩ := Except.bind_eq_ok_iff.mp hs
  cases hs
  rw [Config.get?_copy_global] at he
  simp only [List.mem_append, List.mem_cons, List.not_mem_nil, or_false] at he
  obtain ((rfl | he) | rfl | rfl | rfl | rfl) | he := he
  · exact ⟨_, _, rfl, .inr ⟨"global", .inl rfl, Config.get?_copy_global c⟩⟩
  · obtain ⟨p, hp, hblock⟩ := (Except.mapM_eq_ok_iff.mp hprofiles).exists_of_mem_right he
    obtain ⟨raw, hraw, hblock⟩ := Except.bind_eq_ok_iff.mp hblock
    cases hblock
    exact ⟨_, _, rfl, .inl (textual_rawSettings (h.profiles p hp) hraw)⟩
  · exact ⟨_, _, rfl, .inl (textual_rawSettings h.readProfile hread)⟩
  · exact ⟨_, _, rfl, .inl (textual_rawSettings h.commandProcessing hcommands)⟩
  · exact ⟨_, _, rfl, .inl (textual_rawSettings h.puppetdb hpuppetdb)⟩
  · exact ⟨_, _, rfl, .inl (textual_rawSettings h.developer hdeveloper)⟩
  · obtain ⟨⟨key, contents⟩, hextra, hblock⟩ := List.mem_filterMap.mp he
    cases key with
    | text name =>
      rw [extraBlock?] at hblock
      split at hblock
      · next settings hget =>
        cases hblock
        exact ⟨_, _, rfl, .inr ⟨name, .inr (List.mem_map_of_mem hextra), hget⟩⟩
      · cases hblock
    | _ => cases hblock

theorem headed_sections (h : AllResolved c host) (hs : sections c host = .ok es) : Headed es := by
  intro e he
  obtain ⟨name, settings, rfl, _⟩ := mem_sections h hs he
  exact ⟨rfl, rfl⟩

theorem forall_leaves_sections (h : AllResolved c host) {P : Value → Prop} (htext : ∀ s, P (.text s))
    (hkept : ∀ key settings, IsKept c key → c.copy.get? key = some (.map settings) → ∀ x ∈ (Value.map settings).leaves, P x)
    (hs : sections c host = .ok es) : ∀ x ∈ (Value.map es).leaves, P x := by
  rw [forall_leaves_map]
  have hisText : ∀ {v : Value}, v.isText = true → ∀ x ∈ v.leaves, P x := by
    intro v hv
    cases v with
    | text s => exact List.forall_mem_singleton.mpr (htext s)
    | _ => cases hv
  intro e he
  obtain ⟨name, settings, rfl, htextual | ⟨key, hkey, hget⟩⟩ := mem_sections h hs he
  · refine ⟨hisText rfl, forall_leaves_map.mpr fun f hf => ?_⟩
    exact ⟨hisText (htextual f hf).1, hisText (htextual f hf).2⟩
  · exact ⟨hisText rfl, hkept key settings hkey hget⟩

end Dump

end Stanza
