import Mathlib.Logic.Unique
import Stanza.Proofs.Logged
import Stanza.Proofs.Settings
import Stanza.Schema.Check

/-! # The stages of a section, one by one

Each check and conversion is characterised by what it accepts: `Admitted` of raw values, `Converts` of single
settings, `Fits` of the resolved section. Together they say when a section is resolved and to what, which the
heading of the section has no part in.
-/
namespace Stanza

theorem ConfigError.raiseIfAny_eq_ok_iff {kind : ConfigErrorKind} {message : String} {issues : List Issue} :
    raiseIfAny kind message issues = .ok () ↔ issues = [] := by
  cases issues <;> simp [raiseIfAny]

namespace Schema

namespace Spec

variable {α : Type} [Named α]

theorem get?_eq_some {spec : Spec α} {name : String} {field : α} (h : spec.get? name = some field) :
    field ∈ spec.fields ∧ Named.name field = name :=
  ⟨List.mem_reverse.mp (List.mem_of_find?_eq_some h), by simpa [hasName] using List.find?_some h⟩

theorem exists_get?_iff {spec : Spec α} {name : String} :
    (∃ field, spec.get? name = some field) ↔ spec.declares name = true := by
  rw [← Option.isSome_iff_exists, get?, List.find?_isSome, declares, List.any_eq_true]
  simp

theorem declares_of_mem {spec : Spec α} {field : α} (h : field ∈ spec.fields) :
    spec.declares (Named.name field) = true := List.any_eq_true.mpr ⟨field, h, beq_self_eq_true _⟩

/-- Of a specification that names no field twice. -/
theorem get?_of_mem {spec : Spec α} (hn : (spec.fields.map Named.name).Nodup) {field : α} (h : field ∈ spec.fields) :
    spec.get? (Named.name field) = some field := by
  obtain ⟨other, ho⟩ := exists_get?_iff.mpr (declares_of_mem h)
  obtain ⟨hmem, hname⟩ := get?_eq_some ho
  rw [ho, List.inj_on_of_nodup_map hn hmem h hname]

theorem declaresKey_iff {spec : Spec α} {key : Value} :
    spec.declaresKey key = true ↔ ∃ name, key = .text name ∧ ∃ field, spec.get? name = some field := by
  cases key <;> simp [declaresKey, exists_get?_iff]

theorem nodup_keys_stripUnknown (spec : Spec α) {data : Settings} (hd : data.Distinct) :
    (Settings.keys (spec.stripUnknown data)).Nodup := by
  refine (hd.filter _).nodup_keys fun k hk => ?_
  obtain ⟨e, he, rfl⟩ := List.mem_map.mp hk
  obtain ⟨name, hname, _⟩ := declaresKey_iff.mp (List.mem_filter.mp he).2
  exact ⟨name, hname⟩

end Spec

/-! ## Raw values -/

def Admitted (field : Incoming) (value : Value) : Prop :=
  if value.isNull then field.required = false else shapeProblem? field value = .ok none

theorem incomingIssue?_eq_none_iff {heading : String} {data : Settings} {field : Incoming} :
    incomingIssue? heading data field = .ok none ↔ Admitted field (data.get field.name) := by
  simp only [incomingIssue?, Admitted]
  split
  · cases field.required <;> simp [pure, Except.pure]
  · simp only [Except.bind_eq_ok_iff]
    constructor
    · rintro ⟨problem, hp, h⟩
      cases problem with
      | none => exact hp
      | some _ => cases h
    · exact fun h => ⟨none, h, rfl⟩

theorem collectIssues_eq_nil_iff {α : Type} {check : α → Except Fault (Option Issue)} {fields : List α} :
    collectIssues check fields = .ok [] ↔ ∀ field ∈ fields, check field = .ok none := by
  simp only [collectIssues, Except.bind_eq_ok_iff, Except.mapM_eq_ok_iff]
  constructor
  · rintro ⟨issues, hf, h⟩
    have hnil : ∀ issue ∈ issues, issue = none := List.filterMap_eq_nil_iff.mp (Except.ok.inj h)
    clear h
    induction hf with
    | nil => simp
    | @cons field issue fields issues hi _ ih =>
      intro f hf
      rcases List.mem_cons.mp hf with rfl | hf
      · rw [hi, hnil issue List.mem_cons_self]
      · exact ih (fun i hi => hnil i (List.mem_cons_of_mem _ hi)) f hf
  · intro h
    refine ⟨fields.map fun _ => none, ?_, ?_⟩
    · rw [List.forall₂_map_right_iff, List.forall₂_same]
      exact h
    · exact congrArg Except.ok (by simp [List.filterMap_map])

theorem validateIncoming_eq_ok_iff {spec : Spec Incoming} {data known : Settings} {heading : String} :
    (validateIncoming spec data heading).result = .ok known ↔
      known = spec.stripUnknown data ∧ ∀ field ∈ spec.fields, Admitted field (known.get field.name) := by
  simp only [validateIncoming, warnUnknown, Logged.result_bind_eq_ok_iff, Logged.result_warn, Logged.result_pure,
    Logged.result_lift, Except.mapError_eq_ok_iff]
  constructor
  · rintro ⟨_, _, issues, hc, _, hr, hk⟩
    cases ConfigError.raiseIfAny_eq_ok_iff.mp hr
    cases hk
    exact ⟨rfl, fun field hf => incomingIssue?_eq_none_iff.mp (collectIssues_eq_nil_iff.mp hc field hf)⟩
  · rintro ⟨rfl, h⟩
    refine ⟨_, ⟨(), trivial, rfl⟩, [], ?_, (), rfl, rfl⟩
    exact collectIssues_eq_nil_iff.mpr fun field hf => incomingIssue?_eq_none_iff.mpr (h field hf)

theorem validateIncoming_warnings (spec : Spec Incoming) (data : Settings) (heading : String) :
    (validateIncoming spec data heading).warnings = (spec.unknownKeys data).map (unknownKeyWarning heading) := by
  rw [validateIncoming, Logged.warnings_bind_of_forall _ fun _ => ?_]
  · exact Logged.warnings_bind_of_forall _ fun _ => rfl
  · rw [Logged.warnings_bind_of_forall _ fun _ => Logged.warnings_bind_of_forall _ fun _ => rfl]
    rfl

/-! ## Defaults -/

def isMissing (data : Settings) (field : Incoming) : Bool :=
  !data.has field.name && !field.default.value.isNull

def defaultEntry (field : Incoming) : Value × Value := (.text field.name, field.default.value)

theorem foldl_fillDefault {fields : List Incoming} (hn : (fields.map Incoming.name).Nodup) (data : Settings) :
    fields.foldl fillDefault data = data ++ (fields.filter (isMissing data)).map defaultEntry := by
  induction fields generalizing data with
  | nil => simp
  | cons field fields ih =>
    obtain ⟨hf, hn⟩ := List.nodup_cons.mp hn
    rw [List.foldl_cons, ih hn, fillDefault]
    by_cases hm : isMissing data field = true
    · have hh : data.has field.name = false ∧ field.default.value.isNull = false := by
        simpa [isMissing] using hm
      have hs : fields.filter (isMissing (data.set field.name field.default.value)) = fields.filter (isMissing data) := by
        refine List.filter_congr fun other ho => ?_
        have hne : field.name ≠ other.name := fun he => hf (he ▸ List.mem_map_of_mem ho)
        simp [isMissing, Settings.has_set, hne]
      rw [if_neg (by simp [hh]), hs, Settings.set_of_not_has hh.1, List.filter_cons_of_pos hm]
      simp [defaultEntry]
    · rw [if_pos (by simpa [isMissing, Bool.or_eq_true, Decidable.imp_iff_not_or] using hm),
        List.filter_cons_of_neg hm]

def written (data : Settings) : Settings := data.filter fun e => !e.2.isNull

theorem fillDefaults_eq {spec : Spec Incoming} (hn : (spec.fields.map Incoming.name).Nodup) (data : Settings) :
    fillDefaults spec data
      = written data ++ (spec.fields.filter (isMissing (written data))).map defaultEntry :=
  foldl_fillDefault hn _

theorem mem_fillDefaults {spec : Spec Incoming} (hn : (spec.fields.map Incoming.name).Nodup) {data : Settings}
    {e : Value × Value} (h : e ∈ fillDefaults spec data) :
    e ∈ data ∨ ∃ field ∈ spec.fields, field.default.value.isNull = false ∧ e = defaultEntry field := by
  rw [fillDefaults_eq hn] at h
  rcases List.mem_append.mp h with h | h
  · exact .inl (List.mem_of_mem_filter h)
  · obtain ⟨field, hf, rfl⟩ := List.mem_map.mp h
    obtain ⟨hmem, hm⟩ := List.mem_filter.mp hf
    exact .inr ⟨field, hmem, by simpa using (Bool.and_eq_true_iff.mp hm).2, rfl⟩

/-- A field with a default is present after filling in. -/
theorem has_fillDefaults {spec : Spec Incoming} (hn : (spec.fields.map Incoming.name).Nodup) (data : Settings)
    {field : Incoming} (hf : field ∈ spec.fields) (hd : field.default.value.isNull = false) :
    (fillDefaults spec data).has field.name = true := by
  rw [fillDefaults_eq hn, Settings.has_iff_mem_keys, Settings.keys, List.map_append, List.mem_append]
  cases hw : Settings.has (written data) field.name with
  | true => exact .inl (Settings.has_iff_mem_keys.mp hw)
  | false =>
    refine .inr (List.mem_map.mpr ⟨defaultEntry field, List.mem_map_of_mem ?_, rfl⟩)
    exact List.mem_filter.mpr ⟨hf, by simp [isMissing, hw, hd]⟩

theorem nodup_keys_fillDefaults {spec : Spec Incoming} {data : Settings} (hk : (Settings.keys data).Nodup) :
    (Settings.keys (fillDefaults spec data)).Nodup := by
  have hw : (Settings.keys (written data)).Nodup := (List.filter_sublist.map _).nodup hk
  rw [fillDefaults]
  change (Settings.keys (spec.fields.foldl fillDefault (written data))).Nodup
  generalize written data = filled at hw
  induction spec.fields generalizing filled with
  | nil => exact hw
  | cons field fields ih =>
    rw [List.foldl_cons]
    refine ih _ ?_
    rw [fillDefault]
    split
    · exact hw
    · exact Settings.nodup_keys_set hw _ _

/-! ## Conversion of settings -/

def fieldOf? (spec : Spec Outgoing) : Value → Option Outgoing
  | .text name => spec.get? name
  | _ => none

/-- A setting and the one it is converted to; a key without a field keeps its value. -/
def Converts (spec : Spec Outgoing) (e f : Value × Value) : Prop :=
  e.1 = f.1 ∧ match fieldOf? spec e.1 with
    | some field => convert field e.2 = .ok f.2
    | none => e.2 = f.2

theorem convertEntry_eq_inl_iff {spec : Spec Outgoing} {heading : String} {e f : Value × Value} :
    convertEntry spec heading e = .ok (.inl f) ↔ Converts spec e f := by
  rcases e with ⟨k, raw⟩
  rcases f with ⟨l, v⟩
  cases k with
  | text name =>
    cases hg : spec.get? name with
    | none => simp [convertEntry, Converts, fieldOf?, hg, eq_comm]
    | some field =>
      cases hc : convert field raw with
      | ok w => simp [convertEntry, Converts, fieldOf?, hg, hc, eq_comm]
      | error e =>
        cases e <;> simp [convertEntry, Converts, fieldOf?, hg, hc, Except.map_eq_ok_iff]
  | _ => simp [convertEntry, Converts, fieldOf?, eq_comm]

theorem issuesOf_eq_nil_iff {entries : List ((Value × Value) ⊕ Issue)} :
    issuesOf entries = [] ↔ entries = (settingsOf entries).map .inl := by
  induction entries with
  | nil => simp [issuesOf, settingsOf]
  | cons entry entries ih =>
    cases entry with
    | inl e => simpa [issuesOf, settingsOf] using ih
    | inr i =>
      refine iff_of_false (by simp [issuesOf]) fun h => ?_
      have hm : Sum.inr i ∈ (settingsOf (.inr i :: entries)).map .inl := h ▸ List.mem_cons_self
      simp at hm

theorem settingsOf_map_inl (out : Settings) : settingsOf (out.map .inl) = out := by
  rw [settingsOf, List.filterMap_map]
  exact List.filterMap_some

theorem convertSettings_eq_ok_iff {spec : Spec Outgoing} {data out : Settings} {heading : String} :
    convertSettings spec data heading = .ok out ↔ List.Forall₂ (Converts spec) data out := by
  simp only [convertSettings, Except.bind_eq_ok_iff, Except.mapError_eq_ok_iff]
  constructor
  · rintro ⟨entries, he, _, hr, h⟩
    cases h
    have hi := issuesOf_eq_nil_iff.mp (ConfigError.raiseIfAny_eq_ok_iff.mp hr)
    rw [hi, Except.mapM_eq_ok_iff, List.forall₂_map_right_iff] at he
    exact he.imp fun _ _ => convertEntry_eq_inl_iff.mp
  · intro h
    refine ⟨out.map .inl, ?_, (), ?_, ?_⟩
    · rw [Except.mapM_eq_ok_iff, List.forall₂_map_right_iff]
      exact h.imp fun _ _ => convertEntry_eq_inl_iff.mpr
    · rw [ConfigError.raiseIfAny_eq_ok_iff, issuesOf_eq_nil_iff, settingsOf_map_inl]
    · rw [settingsOf_map_inl]
      rfl

theorem keys_of_converts {spec : Spec Outgoing} {data out : Settings} (h : List.Forall₂ (Converts spec) data out) :
    Settings.keys data = Settings.keys out :=
  Settings.keys_eq_of_forall₂ (h.imp fun _ _ h => h.1)

/-! ## Resolved sections -/

/-- Exactly what a specification demands: no other key, no required one missing, every value of its kind. -/
structure Fits (spec : Spec Outgoing) (data : Settings) : Prop where
  declared : ∀ key ∈ Settings.keys data, spec.declaresKey key = true
  complete : ∀ name ∈ requiredNames spec, data.has name = true
  kinds : ∀ field ∈ spec.fields, ∀ value, data.get? field.name = some value → isKind field value = true

theorem outgoingIssue?_eq_none_iff {heading : String} {data : Settings} {field : Outgoing} :
    outgoingIssue? heading data field = none ↔ ∀ value, data.get? field.name = some value → isKind field value = true := by
  rw [outgoingIssue?]
  cases data.get? field.name with
  | none => simp
  | some value =>
    cases hk : isKind field value <;> simp [hk]

theorem insertName_ne_nil (name : String) (names : List String) : insertName name names ≠ [] := by
  cases names with
  | nil => simp [insertName]
  | cons other rest =>
    rw [insertName]
    split <;> simp

theorem sortNames_eq_nil_iff {names : List String} : sortNames names = [] ↔ names = [] := by
  cases names with
  | nil => exact iff_of_true rfl rfl
  | cons name names => exact iff_of_false (insertName_ne_nil _ _) (by simp)

theorem outgoingIssues_eq_nil_iff {spec : Spec Outgoing} {data : Settings} {heading : String} :
    outgoingIssues spec data heading = [] ↔ Fits spec data := by
  simp only [outgoingIssues, List.append_eq_nil_iff, List.map_eq_nil_iff, Spec.unknownKeys, List.filter_eq_nil_iff,
    List.filterMap_eq_nil_iff, outgoingIssue?_eq_none_iff, sortNames_eq_nil_iff, Bool.not_eq_true',
    Bool.not_eq_false]
  exact ⟨fun ⟨⟨h1, h2⟩, h3⟩ => ⟨h1, h2, h3⟩, fun h => ⟨⟨h.declared, h.complete⟩, h.kinds⟩⟩

theorem validateOutgoing_eq_ok_iff {spec : Spec Outgoing} {data out : Settings} {heading : String} :
    validateOutgoing spec data heading = .ok out ↔ Fits spec data ∧ data = out := by
  simp only [validateOutgoing, Except.bind_eq_ok_iff, Except.mapError_eq_ok_iff, Unique.exists_iff,
    PUnit.default_eq_unit, ConfigError.raiseIfAny_eq_ok_iff, outgoingIssues_eq_nil_iff, pure, Except.pure,
    Except.ok.injEq]

/-- When a section is resolved, and to what. -/
theorem resolveSection_eq_ok_iff {spec : SectionSpec} {raw out : Settings} {heading : String} :
    (resolveSection spec raw heading).result = .ok out ↔
      (∀ field ∈ spec.incoming.fields, Admitted field ((spec.incoming.stripUnknown raw).get field.name)) ∧
      List.Forall₂ (Converts spec.outgoing) (fillDefaults spec.incoming (spec.incoming.stripUnknown raw)) out ∧
      Fits spec.outgoing out := by
  simp only [resolveSection, Logged.result_bind_eq_ok_iff, Logged.result_lift, validateIncoming_eq_ok_iff,
    convertSettings_eq_ok_iff, validateOutgoing_eq_ok_iff]
  constructor
  · rintro ⟨known, ⟨rfl, ha⟩, converted, hc, hf, rfl⟩
    exact ⟨ha, hc, hf⟩
  · rintro ⟨ha, hc, hf⟩
    exact ⟨_, ⟨rfl, ha⟩, out, hc, hf, rfl⟩

theorem resolveSection_warnings (spec : SectionSpec) (raw : Settings) (heading : String) :
    (resolveSection spec raw heading).warnings
      = (spec.incoming.unknownKeys raw).map (unknownKeyWarning heading) := by
  rw [resolveSection, Logged.warnings_bind_of_forall _ fun _ => ?_]
  · exact validateIncoming_warnings _ _ _
  · rw [Logged.warnings_bind_of_forall _ fun _ => rfl]
    rfl

end Schema

end Stanza
