import Stanza.Proofs.Logged.Failure
import Stanza.Proofs.Schema.Catalogue
import Stanza.Proofs.Schema.Stages

/-! # Sections that cannot be resolved

A section that breaks what is asked of it is refused with an error of the schema or of conversion. Two things stop a
section in another way: a setting that is refused and too long to be quoted, and a number of minutes or days that is no
span.
-/
namespace Stanza

theorem Text.writeInteger_eq_error_iff {n : Int} {e : Text.DigitLimitError} :
    Text.writeInteger n = .error e ↔ ¬ Text.Writable n ∧ e = .writing := by
  by_cases hw : Text.Writable n
  · simp [Text.writeInteger_of_writable hw, hw]
  · have hlong : Text.digitLimit < (toString n.natAbs).length := by
      rw [Nat.toString_eq_ofList_toDigits, String.length_ofList]
      exact Nat.not_le.mp hw
    rw [Text.writeInteger, if_pos hlong]
    simp [hw, eq_comm]

def Fault.Ordinary (fault : Fault) : Prop := ∃ e, fault = .config e ∧ e.kind ≠ .invariant

theorem Fault.Ordinary.kind_ne {e : ConfigError} (h : (Fault.config e).Ordinary) : e.kind ≠ .invariant := by
  obtain ⟨d, hd, hk⟩ := h
  cases hd
  exact hk

theorem ConfigError.ordinary_of_raiseIfAny {kind : ConfigErrorKind} (hk : kind ≠ .invariant) {message : String}
    {issues : List Issue} {fault : Fault} (h : (raiseIfAny kind message issues).mapError Fault.config = .error fault) :
    fault.Ordinary := by
  obtain ⟨e, he, rfl⟩ := Except.mapError_eq_error_iff.mp h
  rw [raiseIfAny] at he
  split at he
  · cases he
  · cases he
    exact ⟨_, rfl, hk⟩

/-- A host whose memory is negative and too long to be written. -/
def Host.Unwritable (host : Host) : Prop := host.commandSize < 0 ∧ ¬ Text.Writable host.commandSize

namespace Schema

inductive Exceeds : Kind → Int → Span.RangeError → Prop
  | minutes {n : Int} {e : Span.RangeError} (h : Span.ofMinutes n = .error e) : Exceeds .minutes n e
  | days {n : Int} {e : Span.RangeError} (h : Span.ofDays n = .error e) : Exceeds .days n e

theorem Exceeds.cases_kind {kind : Kind} {n : Int} {e : Span.RangeError} (h : Exceeds kind n e) :
    kind = .minutes ∧ Span.ofMinutes n = .error e ∨ kind = .days ∧ Span.ofDays n = .error e := by
  cases h with
  | minutes h => exact .inl ⟨rfl, h⟩
  | days h => exact .inr ⟨rfl, h⟩

/-- How a setting stops the conversion of its section. -/
inductive Breaks (spec : Spec Outgoing) : Value × Value → Fault → Prop
  | unquotable {name : String} {field : Outgoing} {raw : Value} {r : Rejection} {e : Text.DigitLimitError}
    (hg : spec.get? name = some field) (hr : convert field raw = .error (.rejected r)) (hl : raw.literal = .error e) :
    Breaks spec (.text name, raw) (.rejected (.digitLimit e))
  | outOfRange {name : String} {field : Outgoing} {raw : Value} {n : Int} {e : Span.RangeError}
    (hg : spec.get? name = some field) (hn : wholeNumber raw = .ok n) (hm : atLeast field.minimum n = .ok ())
    (he : Exceeds field.kind n e) : Breaks spec (.text name, raw) (.outOfRange e)

theorem Breaks.isReported {spec : Spec Outgoing} {setting : Value × Value} {fault : Fault}
    (h : Breaks spec setting fault) : fault.isReported = false := by
  cases h <;> rfl

/-! ## Single settings -/

section

variable {field : Outgoing} {raw : Value} {fault : Fault}

theorem convert_eq_error (h : convert field raw = .error fault) : (∃ r, fault = .rejected r) ∨
    ∃ n e, fault = .outOfRange e ∧ wholeNumber raw = .ok n ∧ atLeast field.minimum n = .ok () ∧ Exceeds field.kind n e := by
  have hrefused : ∀ {α : Type} {x : Except Rejection α}, x.mapError Fault.rejected = .error fault → ∃ r, fault = .rejected r := by
    intro α x hx
    obtain ⟨r, _, rfl⟩ := Except.mapError_eq_error_iff.mp hx
    exact ⟨r, rfl⟩
  have hspan : ∀ {ofNumber : Int → Except Span.RangeError Span},
      (∀ n e, ofNumber n = .error e → Exceeds field.kind n e) →
      ((wholeNumber raw).mapError Fault.rejected >>= fun n => (atLeast field.minimum n).mapError Fault.rejected >>= fun _ =>
        Value.span <$> (ofNumber n).mapError Fault.outOfRange) = .error fault →
      (∃ r, fault = .rejected r) ∨ ∃ n e, fault = .outOfRange e ∧ wholeNumber raw = .ok n ∧
        atLeast field.minimum n = .ok () ∧ Exceeds field.kind n e := by
    intro ofNumber hexceeds hx
    obtain hx | ⟨n, hn, hx⟩ := Except.bind_eq_error_iff.mp hx
    · exact .inl (hrefused hx)
    · obtain hx | ⟨_, hm, hx⟩ := Except.bind_eq_error_iff.mp hx
      · exact .inl (hrefused hx)
      · obtain ⟨e, he, rfl⟩ := Except.mapError_eq_error_iff.mp (Except.map_eq_error_iff.mp hx)
        exact .inr ⟨n, e, rfl, Except.mapError_eq_ok_iff.mp hn, Except.mapError_eq_ok_iff.mp hm, hexceeds n e he⟩
  cases hk : field.kind with
  | integer =>
    simp only [convert, hk] at h
    obtain h | ⟨n, _, h⟩ := Except.bind_eq_error_iff.mp h
    · exact .inl (hrefused h)
    · obtain h | ⟨_, _, h⟩ := Except.bind_eq_error_iff.mp h
      · exact .inl (hrefused h)
      · cases h
  | boolean | text | texts =>
    simp only [convert, hk] at h
    exact .inl (hrefused (Except.map_eq_error_iff.mp h))
  | minutes =>
    simp only [convert, hk] at h
    rw [hk] at hspan
    exact hspan (fun n e he => .minutes he) h
  | days =>
    simp only [convert, hk] at h
    rw [hk] at hspan
    exact hspan (fun n e he => .days he) h
  | period =>
    simp only [convert, hk] at h
    obtain h | ⟨s, _, h⟩ := Except.bind_eq_error_iff.mp h
    · exact .inl (hrefused h)
    · exact .inl (hrefused (Except.map_eq_error_iff.mp h))
  | choice =>
    simp only [convert, hk] at h
    obtain h | ⟨s, _, h⟩ := Except.bind_eq_error_iff.mp h
    · exact .inl (hrefused h)
    · split at h
      · cases h
      · cases h
        exact .inl ⟨_, rfl⟩

theorem shapeProblem?_eq_error {incoming : Incoming} (h : shapeProblem? incoming raw = .error fault) :
    incoming.shape = .integer ∧ (∃ r, wholeNumber raw = .error r) ∧
      ∃ e, raw.literal = .error e ∧ .rejected (.digitLimit e) = fault := by
  unfold shapeProblem? at h
  cases hs : incoming.shape with
  | integer =>
    simp only [hs] at h
    cases hr : wholeNumber raw with
    | ok n =>
      rw [hr] at h
      cases h
    | error r =>
      rw [hr] at h
      obtain h | ⟨_, _, h⟩ := Except.bind_eq_error_iff.mp h
      · exact ⟨rfl, ⟨r, rfl⟩, digits_eq_error_iff.mp h⟩
      · cases h
  | boolean | text =>
    rw [hs] at h
    cases raw <;> cases h
  | textOrList =>
    rw [hs] at h
    cases raw with
    | list items | tuple items =>
      simp only at h
      split at h <;> cases h
    | _ => cases h
  | choice =>
    rw [hs] at h
    cases raw with
    | text s =>
      simp only at h
      split at h <;> cases h
    | _ => cases h

/-- A setting whose raw value has not even the shape of an integer is not converted either. -/
theorem breaks_of_shapeProblem? {spec : SectionSpec} (hc : Coherent spec) {incoming : Incoming}
    (hf : incoming ∈ spec.incoming.fields) (h : shapeProblem? incoming raw = .error fault) :
    Breaks spec.outgoing (.text incoming.name, raw) fault := by
  obtain ⟨out, hg, ha⟩ := hc.exists_agrees hf
  obtain ⟨hs, ⟨r, hr⟩, e, hl, rfl⟩ := shapeProblem?_eq_error h
  have hkind : out.kind = .integer ∨ out.kind = .minutes ∨ out.kind = .days := by
    rw [agrees, hs] at ha
    cases hk : out.kind with
    | integer => exact .inl rfl
    | minutes => exact .inr (.inl rfl)
    | days => exact .inr (.inr rfl)
    | _ =>
      rw [hk] at ha
      cases ha
  have hrejected : convert out raw = .error (.rejected r) := by
    rcases hkind with hk | hk | hk <;> simp only [convert, hk, hr] <;> rfl
  exact .unquotable hg hrejected hl

end

theorem convertEntry_eq_error {spec : Spec Outgoing} {heading : String} {e : Value × Value} {fault : Fault}
    (h : convertEntry spec heading e = .error fault) : Breaks spec e fault := by
  rcases e with ⟨key, raw⟩
  cases key with
  | text name =>
    rw [convertEntry] at h
    split at h
    · cases h
    · next field hg =>
      split at h
      · cases h
      · next r hr =>
        obtain h | ⟨_, _, h⟩ := Except.bind_eq_error_iff.mp (Except.map_eq_error_iff.mp h)
        · obtain ⟨e, hl, rfl⟩ := digits_eq_error_iff.mp h
          exact .unquotable hg hr hl
        · cases h
      · next other hne ho =>
        cases h
        obtain ⟨r, rfl⟩ | ⟨n, e, rfl, hn, hm, he⟩ := convert_eq_error ho
        · exact absurd rfl (hne r)
        · exact .outOfRange hg hn hm he
  | _ => cases h

/-! ## Stages -/

section

variable {data : Settings} {heading : String} {fault : Fault}

theorem incomingIssue?_eq_error {field : Incoming} (h : incomingIssue? heading data field = .error fault) :
    ∃ value, data.get? field.name = some value ∧ shapeProblem? field value = .error fault := by
  simp only [incomingIssue?] at h
  split at h
  · cases h
  · next hn =>
    obtain h | ⟨_, _, h⟩ := Except.bind_eq_error_iff.mp h
    · exact ⟨_, Settings.get?_of_get (by simpa using hn), h⟩
    · cases h

theorem validateIncoming_eq_error {spec : Spec Incoming} (h : (validateIncoming spec data heading).result = .error fault) :
    fault.Ordinary ∨ ∃ field ∈ spec.fields, ∃ value,
      (spec.stripUnknown data).get? field.name = some value ∧ shapeProblem? field value = .error fault := by
  rw [validateIncoming] at h
  obtain h | ⟨_, _, h⟩ := Logged.result_bind_eq_error_iff.mp h
  · cases h
  obtain h | ⟨issues, _, h⟩ := Logged.result_bind_eq_error_iff.mp h
  · obtain h | ⟨_, _, h⟩ := Except.bind_eq_error_iff.mp h
    · obtain ⟨before, field, after, hfields, _, hf⟩ := Except.mapM_eq_error_iff.mp h
      exact .inr ⟨field, by simp [hfields], incomingIssue?_eq_error hf⟩
    · cases h
  obtain h | ⟨_, _, h⟩ := Logged.result_bind_eq_error_iff.mp h
  · exact .inl (ConfigError.ordinary_of_raiseIfAny (by decide) h)
  · cases h

theorem convertSettings_eq_error {spec : Spec Outgoing} (h : convertSettings spec data heading = .error fault) :
    fault.Ordinary ∨ ∃ e ∈ data, Breaks spec e fault := by
  rw [convertSettings] at h
  obtain h | ⟨_, _, h⟩ := Except.bind_eq_error_iff.mp h
  · obtain ⟨before, e, after, hdata, _, he⟩ := Except.mapM_eq_error_iff.mp h
    exact .inr ⟨e, by simp [hdata], convertEntry_eq_error he⟩
  obtain h | ⟨_, _, h⟩ := Except.bind_eq_error_iff.mp h
  · exact .inl (ConfigError.ordinary_of_raiseIfAny (by decide) h)
  · cases h

theorem validateOutgoing_eq_error {spec : Spec Outgoing} (h : validateOutgoing spec data heading = .error fault) :
    fault.Ordinary := by
  rw [validateOutgoing] at h
  obtain h | ⟨_, _, h⟩ := Except.bind_eq_error_iff.mp h
  · exact ConfigError.ordinary_of_raiseIfAny (by decide) h
  · cases h

/-- A section is refused, or it is stopped by a setting that is written or is filled in. -/
theorem resolveSection_eq_error {spec : SectionSpec} (hc : Coherent spec)
    (h : (resolveSection spec data heading).result = .error fault) :
    fault.Ordinary ∨ (∃ e ∈ data, Breaks spec.outgoing e fault) ∨
      ∃ field ∈ spec.incoming.fields, field.default.value.isNull = false ∧
        Breaks spec.outgoing (defaultEntry field) fault := by
  have hstrip : ∀ e ∈ spec.incoming.stripUnknown data, e ∈ data := fun e he => List.mem_of_mem_filter he
  rw [resolveSection] at h
  obtain h | ⟨known, hknown, h⟩ := Logged.result_bind_eq_error_iff.mp h
  · obtain hordinary | ⟨field, hf, value, hv, hs⟩ := validateIncoming_eq_error h
    · exact .inl hordinary
    · exact .inr (.inl ⟨_, hstrip _ (Settings.mem_of_get? hv), breaks_of_shapeProblem? hc hf hs⟩)
  obtain ⟨rfl, _⟩ := validateIncoming_eq_ok_iff.mp hknown
  obtain h | ⟨_, _, h⟩ := Logged.result_bind_eq_error_iff.mp h
  · obtain hordinary | ⟨e, he, hb⟩ := convertSettings_eq_error h
    · exact .inl hordinary
    · rcases mem_fillDefaults hc.nodup_incoming he with he | ⟨field, hf, hn, rfl⟩
      · exact .inr (.inl ⟨e, hstrip e he, hb⟩)
      · exact .inr (.inr ⟨field, hf, hn, hb⟩)
  · exact .inl (validateOutgoing_eq_error h)

end

/-! ## Defaults -/

def accepts (spec : SectionSpec) (field : Incoming) : Bool :=
  (spec.outgoing.get? field.name).any fun out => (convert out field.default.value).toOption.isSome

theorem Breaks.convert_eq_error {spec : Spec Outgoing} {name : String} {raw : Value} {fault : Fault}
    (h : Breaks spec (.text name, raw) fault) : ∃ field, spec.get? name = some field ∧ ∃ e, convert field raw = .error e := by
  cases h with
  | unquotable hg hr hl => exact ⟨_, hg, _, hr⟩
  | @outOfRange _ field _ n e hg hn hm he =>
    refine ⟨field, hg, .outOfRange e, ?_⟩
    obtain ⟨hk, h⟩ | ⟨hk, h⟩ := he.cases_kind
    · simp only [convert, hk, hn, hm, h, Except.mapError, bind, Except.bind, Functor.map, Except.map]
    · simp only [convert, hk, hn, hm, h, Except.mapError, bind, Except.bind, Functor.map, Except.map]

theorem not_breaks_of_accepts {spec : SectionSpec} {field : Incoming} (h : accepts spec field = true) {fault : Fault} :
    ¬ Breaks spec.outgoing (defaultEntry field) fault := by
  intro hb
  obtain ⟨out, hg, e, he⟩ := hb.convert_eq_error
  rw [accepts, hg, Option.any_some, he] at h
  cases h

theorem accepts_fixed : ∀ spec ∈ [database, writeDatabase, puppetdb, developer], ∀ field ∈ spec.incoming.fields,
    field.default.value.isNull = false → accepts spec field = true := by
  decide +kernel

theorem one_le_half (host : Host) : 1 ≤ host.half := Int.le_max_right _ _

theorem atLeast_of_le {m n : Int} (h : m ≤ n) : atLeast (some m) n = .ok () := if_neg (Int.not_lt.mpr h)

theorem accepts_of_convert {spec : SectionSpec} {field : Incoming} {out : Outgoing} {v : Value}
    (hg : spec.outgoing.get? field.name = some out) (h : convert out field.default.value = .ok v) :
    accepts spec field = true := by
  rw [accepts, hg, Option.any_some, h]
  rfl

/-- Only the size of the largest command can be a default that is not allowed. -/
theorem accepts_commandProcessing {host : Host} : ∀ field ∈ (commandProcessing host).incoming.fields,
    field.default.value.isNull = false →
    accepts (commandProcessing host) field = true ∨ defaultEntry field = (.text "max-command-size", .int host.commandSize) := by
  have hhalf := atLeast_of_le (one_le_half host)
  have hwrites : atLeast (some 1) host.writes = .ok () := by
    have := one_le_half host
    refine atLeast_of_le ?_
    rw [Host.writes]
    omega
  have hnull : ∀ {p : Prop}, Value.null.isNull = false → p := fun h => by cases h
  simp only [commandProcessing, List.forall_mem_cons, List.not_mem_nil, false_imp_iff, implies_true, and_true]
  refine ⟨fun _ => .inl ?_, fun _ => .inr rfl, fun _ => .inl ?_, fun _ => .inl ?_, fun _ => .inl ?_, hnull, hnull, hnull⟩
  · exact accepts_of_convert rfl ((convert_integer_iff rfl).mpr ⟨_, rfl, hhalf, rfl⟩)
  · exact accepts_of_convert rfl ((convert_boolean_iff rfl).mpr ⟨false, rfl, rfl⟩)
  · exact accepts_of_convert rfl ((convert_integer_iff rfl).mpr ⟨_, rfl, hwrites, rfl⟩)
  · exact accepts_of_convert rfl ((convert_integer_iff rfl).mpr ⟨_, rfl, rfl, rfl⟩)

/-- Sections whose defaults do not follow the host are stopped by what is written only. -/
theorem resolveSection_fixed_eq_error {spec : SectionSpec} (hs : spec ∈ [database, writeDatabase, puppetdb, developer])
    {data : Settings} {heading : String} {fault : Fault} (h : (resolveSection spec data heading).result = .error fault) :
    fault.Ordinary ∨ ∃ e ∈ data, Breaks spec.outgoing e fault := by
  have hc : Coherent spec := by
    simp only [List.mem_cons, List.not_mem_nil, or_false] at hs
    rcases hs with rfl | rfl | rfl | rfl
    · exact coherent_database
    · exact coherent_writeDatabase
    · exact coherent_puppetdb
    · exact coherent_developer
  rcases resolveSection_eq_error hc h with hordinary | hwritten | ⟨field, hf, hn, hb⟩
  · exact .inl hordinary
  · exact .inr hwritten
  · exact absurd hb (not_breaks_of_accepts (accepts_fixed spec hs field hf hn))

theorem breaks_commandSize {host : Host} {fault : Fault}
    (h : Breaks (commandProcessing host).outgoing (.text "max-command-size", .int host.commandSize) fault) :
    host.Unwritable ∧ fault = .rejected (.digitLimit .writing) := by
  have hg : (commandProcessing host).outgoing.get? "max-command-size" = some ((needed "max-command-size" .integer).from 0) :=
    rfl
  cases h with
  | @unquotable _ field _ r e hg' hr hl =>
    cases hg.symm.trans hg'
    obtain ⟨hw, rfl⟩ := Text.writeInteger_eq_error_iff.mp hl
    refine ⟨⟨?_, hw⟩, rfl⟩
    by_contra hn
    have hconvert : convert ((needed "max-command-size" .integer).from 0) (.int host.commandSize)
        = .ok (.int host.commandSize) :=
      (convert_integer_iff rfl).mpr ⟨host.commandSize, rfl, atLeast_of_le (Int.not_lt.mp hn), rfl⟩
    rw [hr] at hconvert
    cases hconvert
  | @outOfRange _ field _ n e hg' hn hm he =>
    cases hg.symm.trans hg'
    cases he

theorem resolveSection_commandProcessing_eq_error {host : Host} {data : Settings} {heading : String} {fault : Fault}
    (h : (resolveSection (commandProcessing host) data heading).result = .error fault) :
    fault.Ordinary ∨ (∃ e ∈ data, Breaks (commandProcessing host).outgoing e fault) ∨
      (host.Unwritable ∧ fault = .rejected (.digitLimit .writing)) := by
  rcases resolveSection_eq_error (coherent_commandProcessing host) h with hordinary | hwritten | ⟨field, hf, hn, hb⟩
  · exact .inl hordinary
  · exact .inr (.inl hwritten)
  · rcases accepts_commandProcessing field hf hn with ha | he
    · exact absurd hb (not_breaks_of_accepts ha)
    · exact .inr (.inr (breaks_commandSize (he ▸ hb)))

end Schema

end Stanza
