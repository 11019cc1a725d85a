import Stanza.Proofs.Schema.Origin
import Stanza.Proofs.Schema.Relevant

/-! # What is reported of a section

A section of the catalogue is refused for what is written in it and for nothing else: first for each value of a wrong
shape, in the order of the fields, and then for each value that is not converted, in the order of the settings. The
defaults are all converted, and what is converted is what the section has to be in the end.
-/
namespace Stanza.Schema

variable {spec : SectionSpec} {raw : Settings} {heading : String}

/-! ## Shapes -/

def hasShape (field : Incoming) (value : Value) : Bool :=
  match field.shape, value with
  | .integer, value => (wholeNumber value).toOption.isSome
  | .boolean, .bool _ | .boolean, .text _ => true
  | .text, .text _ | .text, .int _ | .text, .float _ => true
  | .textOrList, .text _ => true
  | .textOrList, .list items | .textOrList, .tuple items => items.all Value.isText
  | .choice, .text s => field.choices.isEmpty || field.choices.contains (Text.trimmed s)
  | _, _ => false

/-- Something is wrong with a value that can be quoted if it has not the shape of its field. -/
theorem shapeProblem?_cases {field : Incoming} {value : Value} {shown : String} (hl : value.literal = .ok shown) :
    (hasShape field value = true ∧ shapeProblem? field value = .ok none) ∨
      (hasShape field value = false ∧ ∃ problem, shapeProblem? field value = .ok (some problem)) := by
  unfold hasShape shapeProblem?
  cases hs : field.shape with
  | integer =>
    cases hn : wholeNumber value with
    | ok n =>
      simp only [hn]
      exact .inl ⟨rfl, trivial⟩
    | error r =>
      simp only [hn, hl]
      exact .inr ⟨rfl, _, rfl⟩
  | boolean =>
    cases value with
    | bool _ | text _ => exact .inl ⟨rfl, rfl⟩
    | _ => exact .inr ⟨rfl, _, rfl⟩
  | text =>
    cases value with
    | text _ | int _ | float _ => exact .inl ⟨rfl, rfl⟩
    | _ => exact .inr ⟨rfl, _, rfl⟩
  | textOrList =>
    cases value with
    | text _ => exact .inl ⟨rfl, rfl⟩
    | list items | tuple items =>
      cases ht : items.all Value.isText with
      | true => exact .inl ⟨ht, if_pos ht⟩
      | false => exact .inr ⟨ht, _, if_neg (Bool.eq_false_iff.mp ht)⟩
    | _ => exact .inr ⟨rfl, _, rfl⟩
  | choice =>
    cases value with
    | text s =>
      cases hc : field.choices.isEmpty || field.choices.contains (Text.trimmed s) with
      | true => exact .inl ⟨hc, if_pos hc⟩
      | false => exact .inr ⟨hc, _, if_neg (Bool.eq_false_iff.mp hc)⟩
    | _ => exact .inr ⟨rfl, _, rfl⟩

def isMisshapen (raw : Settings) (field : Incoming) : Bool :=
  !(raw.get field.name).isNull && !hasShape field (raw.get field.name)

def misshapen (spec : Spec Incoming) (raw : Settings) : List Incoming := spec.fields.filter (isMisshapen raw)

def ShapeIssue (heading : String) (raw : Settings) (field : Incoming) (issue : Issue) : Prop :=
  ∃ problem, shapeProblem? field (raw.get field.name) = .ok (some problem) ∧
    issue = ⟨issuePath heading (.text field.name), problem⟩

/-! ## Conversions -/

def Kind.isCounted : Kind → Bool
  | .integer | .minutes | .days => true
  | _ => false

def isBelow (field : Outgoing) (value : Value) : Bool :=
  match field.minimum, wholeNumber value with
  | some m, .ok n => field.kind.isCounted && n < m
  | _, _ => false

def Outgoing.unbounded (field : Outgoing) : Outgoing := { field with minimum := none }

theorem Outgoing.kind_unbounded (field : Outgoing) : field.unbounded.kind = field.kind := rfl

def isReadable (field : Outgoing) (value : Value) : Bool := (convert field.unbounded value).toOption.isSome

theorem isBelow_eq_false_iff {field : Outgoing} {value : Value} : isBelow field value = false ↔
    (field.kind.isCounted = true → ∀ n, wholeNumber value = .ok n → atLeast field.minimum n = .ok ()) := by
  cases hm : field.minimum with
  | none => simp [isBelow, hm, atLeast]
  | some m =>
    cases hn : wholeNumber value with
    | ok n => simp [isBelow, hm, hn, atLeast]
    | error r => simp [isBelow, hm, hn]

theorem exists_count_iff {field : Outgoing} {value : Value} (hk : field.kind.isCounted = true) {P : Int → Prop} :
    (∃ n, wholeNumber value = .ok n ∧ atLeast field.minimum n = .ok () ∧ P n) ↔
      (∃ n, wholeNumber value = .ok n ∧ atLeast none n = .ok () ∧ P n) ∧ isBelow field value = false := by
  rw [isBelow_eq_false_iff]
  constructor
  · rintro ⟨n, hn, hm, h⟩
    refine ⟨⟨n, hn, rfl, h⟩, fun _ m hm' => ?_⟩
    cases hn.symm.trans hm'
    exact hm
  · rintro ⟨⟨n, hn, _, h⟩, hm⟩
    exact ⟨n, hn, hm hk n hn, h⟩

/-- A minimum keeps numbers that are less from being converted, and does nothing else. -/
theorem convert_eq_ok_iff {field : Outgoing} {value v : Value} : convert field value = .ok v ↔
    convert field.unbounded value = .ok v ∧ isBelow field value = false := by
  cases hk : field.kind with
  | integer =>
    rw [convert_integer_iff hk, convert_integer_iff (field.kind_unbounded.trans hk)]
    exact exists_count_iff (by rw [hk]; rfl)
  | minutes =>
    rw [convert_minutes_iff hk, convert_minutes_iff (field.kind_unbounded.trans hk)]
    exact exists_count_iff (by rw [hk]; rfl)
  | days =>
    rw [convert_days_iff hk, convert_days_iff (field.kind_unbounded.trans hk)]
    exact exists_count_iff (by rw [hk]; rfl)
  | _ =>
    rw [isBelow_eq_false_iff, hk]
    simp [convert, Outgoing.unbounded, hk, Kind.isCounted]

theorem succeeds_convert_iff {field : Outgoing} {value : Value} :
    (convert field value).Succeeds ↔ isReadable field value = true ∧ isBelow field value = false := by
  rw [isReadable, Except.isSome_toOption_iff]
  simp only [Except.Succeeds, @convert_eq_ok_iff field, exists_and_right]

def refuses (spec : Spec Outgoing) (e : Value × Value) : Bool :=
  (fieldOf? spec e.1).any fun field => !isReadable field e.2 || isBelow field e.2

def unconverted (spec : SectionSpec) (raw : Settings) : Settings :=
  (relevant spec.incoming raw).filter (refuses spec.outgoing)

def ConversionIssue (spec : Spec Outgoing) (heading : String) (e : Value × Value) (issue : Issue) : Prop :=
  ∃ field r shown, fieldOf? spec e.1 = some field ∧ convert field e.2 = .error (.rejected r) ∧ e.2.literal = .ok shown ∧
    issue = ⟨issuePath heading e.1, "cannot convert " ++ shown ++ ": " ++ r.message⟩

theorem refuses_eq_false_iff {spec : Spec Outgoing} {e : Value × Value} :
    refuses spec e = false ↔ ∃ f, Converts spec e f := by
  rw [refuses]
  cases hf : fieldOf? spec e.1 with
  | none => exact iff_of_true rfl ⟨e, rfl, by rw [hf]⟩
  | some field =>
    have hsome : (some field).any (fun field => !isReadable field e.2 || isBelow field e.2) = false ↔
        (convert field e.2).Succeeds := by
      rw [succeeds_convert_iff, Option.any_some, Bool.or_eq_false_iff, Bool.not_eq_false']
    rw [hsome]
    constructor
    · rintro ⟨v, hv⟩
      exact ⟨(e.1, v), rfl, by rw [hf]; exact hv⟩
    · rintro ⟨f, _, hv⟩
      rw [hf] at hv
      exact ⟨f.2, hv⟩

theorem conversionIssue_of_convertEntry {spec : Spec Outgoing} {e : Value × Value} {issue : Issue}
    (h : convertEntry spec heading e = .ok (.inr issue)) : ConversionIssue spec heading e issue := by
  rcases e with ⟨key, raw⟩
  cases key with
  | text name =>
    rw [convertEntry] at h
    split at h
    · cases h
    · next field hg =>
      split at h
      · cases h
      · next r hr =>
        obtain ⟨_, h, hi⟩ := Except.map_eq_ok_iff.mp h
        cases hi
        obtain ⟨shown, hl, h⟩ := Except.bind_eq_ok_iff.mp h
        cases h
        exact ⟨field, r, shown, hg, hr, Except.mapError_eq_ok_iff.mp hl, rfl⟩
      · cases h
  | _ => cases h

/-! ## Reports in order -/

/-- A check of `x` that reports something exactly if `p` holds of `x`. -/
def Reports {α β γ : Type} (f : α → Except Fault β) (report? : β → Option γ) (p : α → Bool) (R : α → γ → Prop)
    (x : α) : Prop :=
  ∃ b, f x = .ok b ∧ ((p x = false ∧ report? b = none) ∨ (p x = true ∧ ∃ c, report? b = some c ∧ R x c))

theorem exists_mapM_reports {α β γ : Type} {f : α → Except Fault β} {report? : β → Option γ} {p : α → Bool}
    {R : α → γ → Prop} {xs : List α} (h : ∀ x ∈ xs, Reports f report? p R x) :
    ∃ bs, xs.mapM f = .ok bs ∧ List.Forall₂ R (xs.filter p) (bs.filterMap report?) := by
  induction xs with
  | nil => exact ⟨[], rfl, .nil⟩
  | cons x xs ih =>
    obtain ⟨⟨b, hb, hx⟩, hxs⟩ := List.forall_mem_cons.mp h
    obtain ⟨bs, hbs, hreports⟩ := ih hxs
    refine ⟨b :: bs, by rw [List.mapM_cons, hb, hbs]; rfl, ?_⟩
    rcases hx with ⟨hp, hnone⟩ | ⟨hp, c, hsome, hc⟩
    · rw [List.filter_cons_of_neg (Bool.eq_false_iff.mp hp), List.filterMap_cons_none hnone]
      exact hreports
    · rw [List.filter_cons_of_pos hp, List.filterMap_cons_some hsome]
      exact .cons hc hreports

theorem get_stripUnknown {spec : Spec Incoming} {field : Incoming} (hf : field ∈ spec.fields) (raw : Settings) :
    (spec.stripUnknown raw).get field.name = raw.get field.name := by
  rw [Settings.get, get?_stripUnknown hf, ← Settings.get]

/-- A declared value that is not `null` counts. -/
theorem mem_relevant_of_get {spec : Spec Incoming} {field : Incoming} (hf : field ∈ spec.fields)
    (hv : (raw.get field.name).isNull = false) : (.text field.name, raw.get field.name) ∈ relevant spec raw :=
  mem_relevant_iff.mpr ⟨Settings.mem_of_get? (Settings.get?_of_get hv), Spec.declares_of_mem hf, hv⟩

theorem reports_incomingIssue? (hc : Coherent spec) (hm : ∀ e ∈ relevant spec.incoming raw, Measured spec.outgoing e)
    {field : Incoming} (hf : field ∈ spec.incoming.fields) :
    Reports (incomingIssue? heading (spec.incoming.stripUnknown raw)) id (isMisshapen raw) (ShapeIssue heading raw)
      field := by
  simp only [Reports, isMisshapen, incomingIssue?, get_stripUnknown hf]
  cases hv : (raw.get field.name).isNull with
  | true =>
    rw [hc.not_required hf]
    exact ⟨none, rfl, .inl ⟨rfl, rfl⟩⟩
  | false =>
    obtain ⟨shown, hl⟩ := (hm _ (mem_relevant_of_get hf hv)).exists_literal
    obtain ⟨hs, hp⟩ | ⟨hs, problem, hp⟩ := @shapeProblem?_cases field _ _ hl
    · rw [hs, hp]
      exact ⟨none, rfl, .inl ⟨rfl, rfl⟩⟩
    · rw [hs, hp]
      exact ⟨_, rfl, .inr ⟨rfl, _, rfl, problem, hp, rfl⟩⟩

theorem exists_checkShapes (hc : Coherent spec) (hm : ∀ e ∈ relevant spec.incoming raw, Measured spec.outgoing e)
    (heading : String) : ∃ issues, List.Forall₂ (ShapeIssue heading raw) (misshapen spec.incoming raw) issues ∧
      checkShapes spec.incoming (spec.incoming.stripUnknown raw) heading
        = (ConfigError.raiseIfAny .schema (describe "invalid config" heading) issues).mapError Fault.config := by
  obtain ⟨issues?, hrun, hissues⟩ := exists_mapM_reports fun field hf => reports_incomingIssue? hc hm hf
  refine ⟨_, hissues, ?_⟩
  rw [checkShapes, collectIssues, hrun]
  rfl

/-- A setting that is converted, or whose value can be quoted and counted. -/
theorem reports_convertEntry {spec : Spec Outgoing} {e : Value × Value} (h : (∃ f, Converts spec e f) ∨ Measured spec e) :
    Reports (convertEntry spec heading) Sum.getRight? (refuses spec) (ConversionIssue spec heading) e := by
  obtain ⟨r, hr⟩ : ∃ r, convertEntry spec heading e = .ok r := by
    rcases h with ⟨f, hf⟩ | hm
    · exact ⟨_, convertEntry_eq_inl_iff.mpr hf⟩
    · exact hm.exists_convertEntry heading
  refine ⟨r, hr, ?_⟩
  cases r with
  | inl f => exact .inl ⟨refuses_eq_false_iff.mpr ⟨f, convertEntry_eq_inl_iff.mp hr⟩, rfl⟩
  | inr issue =>
    refine .inr ⟨?_, issue, rfl, conversionIssue_of_convertEntry hr⟩
    rw [← Bool.not_eq_false, refuses_eq_false_iff]
    rintro ⟨f, hf⟩
    rw [← @convertEntry_eq_inl_iff spec heading, hr] at hf
    cases hf

/-! ## Defaults -/

theorem accepts_of_mem_shipped {host : Host} (hmemory : 0 ≤ host.memory) (h : spec ∈ shipped host) :
    ∀ field ∈ spec.incoming.fields, field.default.value.isNull = false → accepts spec field = true := by
  have hsplit : spec ∈ [database, writeDatabase, puppetdb, developer] ∨ spec = commandProcessing host := by
    simpa [shipped, or_assoc] using h
  rcases hsplit with hfixed | rfl
  · exact accepts_fixed spec hfixed
  · intro field hf hn
    rcases accepts_commandProcessing field hf hn with ha | he
    · exact ha
    · have hsize : 0 ≤ host.commandSize := Int.fdiv_nonneg hmemory (by decide)
      obtain ⟨hname, hvalue⟩ := Prod.mk.inj he
      have hg : (commandProcessing host).outgoing.get? field.name = some ((needed "max-command-size" .integer).from 0) := by
        rw [Value.text.inj hname]
        rfl
      refine accepts_of_convert hg ((convert_integer_iff rfl).mpr ⟨host.commandSize, ?_, atLeast_of_le hsize, rfl⟩)
      rw [hvalue]
      rfl

theorem exists_converts_of_accepts {field : Incoming} (h : accepts spec field = true) :
    ∃ f, Converts spec.outgoing (defaultEntry field) f := by
  rw [accepts] at h
  cases hg : spec.outgoing.get? field.name with
  | none =>
    rw [hg] at h
    cases h
  | some out =>
    rw [hg, Option.any_some, Except.isSome_toOption_iff] at h
    obtain ⟨v, hv⟩ := h
    exact ⟨(.text field.name, v), rfl, by simp only [defaultEntry, fieldOf?, hg, hv]⟩

theorem exists_convertSettings (hc : Coherent spec)
    (ha : ∀ field ∈ spec.incoming.fields, field.default.value.isNull = false → accepts spec field = true)
    (hm : ∀ e ∈ relevant spec.incoming raw, Measured spec.outgoing e) (heading : String) :
    ∃ issues out, List.Forall₂ (ConversionIssue spec.outgoing heading) (unconverted spec raw) issues ∧
      convertSettings spec.outgoing (fillDefaults spec.incoming (spec.incoming.stripUnknown raw)) heading
        = (do
          (ConfigError.raiseIfAny .conversion (describe "invalid config value" heading) issues).mapError Fault.config
          return out) := by
  obtain ⟨missing, hmissing, hfill⟩ : ∃ missing : List Incoming,
      (∀ field ∈ missing, field ∈ spec.incoming.fields ∧ field.default.value.isNull = false) ∧
        fillDefaults spec.incoming (spec.incoming.stripUnknown raw)
          = relevant spec.incoming raw ++ missing.map defaultEntry := by
    refine ⟨_, fun field hf => ?_, fillDefaults_eq hc.nodup_incoming _⟩
    obtain ⟨hf, hmissing⟩ := List.mem_filter.mp hf
    exact ⟨hf, by simpa using (Bool.and_eq_true_iff.mp hmissing).2⟩
  have hdefault : ∀ e ∈ missing.map defaultEntry, ∃ f, Converts spec.outgoing e f := by
    intro e he
    obtain ⟨field, hf, rfl⟩ := List.mem_map.mp he
    obtain ⟨hf, hn⟩ := hmissing field hf
    exact exists_converts_of_accepts (ha field hf hn)
  have hreports : ∀ e ∈ relevant spec.incoming raw ++ missing.map defaultEntry,
      Reports (convertEntry spec.outgoing heading) Sum.getRight? (refuses spec.outgoing)
        (ConversionIssue spec.outgoing heading) e := by
    intro e he
    rcases List.mem_append.mp he with he | he
    · exact reports_convertEntry (.inr (hm e he))
    · exact reports_convertEntry (.inl (hdefault e he))
  obtain ⟨entries, hrun, hissues⟩ := exists_mapM_reports hreports
  have hnone : (missing.map defaultEntry).filter (refuses spec.outgoing) = [] :=
    List.filter_eq_nil_iff.mpr fun e he => Bool.eq_false_iff.mp (refuses_eq_false_iff.mpr (hdefault e he))
  rw [List.filter_append, hnone, List.append_nil] at hissues
  refine ⟨issuesOf entries, settingsOf entries, hissues, ?_⟩
  rw [convertSettings, hfill, hrun]
  rfl

/-! ## Sections -/

/-- What is converted is a section without fault. -/
theorem sound_of_converts (hc : Coherent spec) (hs : Supplied spec) {out : Settings}
    (h : List.Forall₂ (Converts spec.outgoing) (fillDefaults spec.incoming (spec.incoming.stripUnknown raw)) out) :
    Sound spec out where
  settled := settled_of_converts hc h
  complete := by
    intro name hn
    obtain ⟨field, hf, rfl, hd⟩ := hs.exists_default hn
    exact filled_of_converts hc h field hf hd
  filled := filled_of_converts hc h

theorem validateOutgoing_of_convertSettings (hc : Coherent spec) (hs : Supplied spec) {converted : Settings}
    (h : convertSettings spec.outgoing (fillDefaults spec.incoming (spec.incoming.stripUnknown raw)) heading
      = .ok converted) : validateOutgoing spec.outgoing converted heading = .ok converted :=
  validateOutgoing_eq_ok_iff.mpr ⟨(sound_of_converts hc hs (convertSettings_eq_ok_iff.mp h)).fits hc, rfl⟩

/-- How a section ends: with an issue for each value of a wrong shape, or else with an issue for each one that is not
converted, or else resolved. -/
inductive Reported (spec : SectionSpec) (raw : Settings) (heading : String) : Except Fault Settings → Prop
  | shapes {issues : List Issue} (hs : misshapen spec.incoming raw ≠ [])
    (h : List.Forall₂ (ShapeIssue heading raw) (misshapen spec.incoming raw) issues) :
    Reported spec raw heading
      (.error (.config { kind := .schema, message := describe "invalid config" heading, issues }))
  | conversions {issues : List Issue} (hs : misshapen spec.incoming raw = []) (hu : unconverted spec raw ≠ [])
    (h : List.Forall₂ (ConversionIssue spec.outgoing heading) (unconverted spec raw) issues) :
    Reported spec raw heading
      (.error (.config { kind := .conversion, message := describe "invalid config value" heading, issues }))
  | resolved {out : Settings} (hs : misshapen spec.incoming raw = []) (hu : unconverted spec raw = []) :
    Reported spec raw heading (.ok out)

theorem reported_resolveSection (hc : Coherent spec) (hs : Supplied spec)
    (ha : ∀ field ∈ spec.incoming.fields, field.default.value.isNull = false → accepts spec field = true)
    (hm : ∀ e ∈ relevant spec.incoming raw, Measured spec.outgoing e) (heading : String) :
    Reported spec raw heading (resolveSection spec raw heading).result := by
  obtain ⟨issues, hshapes, hcheck⟩ := exists_checkShapes hc hm heading
  rw [result_resolveSection, hcheck]
  cases issues with
  | cons issue issues => exact .shapes (fun h => by rw [h] at hshapes; cases hshapes) hshapes
  | nil =>
    have hshaped : misshapen spec.incoming raw = [] := List.forall₂_nil_right_iff.mp hshapes
    obtain ⟨issues, out, hconversions, hconvert⟩ := exists_convertSettings hc ha hm heading
    change Reported spec raw heading (convertSettings _ _ _ >>= _)
    cases issues with
    | cons issue issues =>
      rw [hconvert]
      exact .conversions hshaped (fun h => by rw [h] at hconversions; cases hconversions) hconversions
    | nil =>
      have hvalid := validateOutgoing_of_convertSettings hc hs hconvert
      rw [hconvert]
      change Reported spec raw heading (validateOutgoing spec.outgoing out heading)
      rw [hvalid]
      exact .resolved hshaped (List.forall₂_nil_right_iff.mp hconversions)

theorem Reported.exists_written {e : ConfigError} (h : Reported spec raw heading (.error (.config e))) :
    ∀ issue ∈ e.issues, ∃ setting ∈ relevant spec.incoming raw, issue.path = issuePath heading setting.1 := by
  intro issue hi
  cases h with
  | shapes _ h =>
    obtain ⟨field, hf, _, _, rfl⟩ := h.exists_of_mem_right hi
    obtain ⟨hf, hp⟩ := List.mem_filter.mp hf
    have hv : (raw.get field.name).isNull = false := by simpa using (Bool.and_eq_true_iff.mp hp).1
    exact ⟨_, mem_relevant_of_get hf hv, rfl⟩
  | conversions _ _ h =>
    obtain ⟨setting, hs, _, _, _, _, _, _, rfl⟩ := h.exists_of_mem_right hi
    exact ⟨setting, List.mem_of_mem_filter hs, rfl⟩

/-- Every section of the catalogue reports exactly what is wrong with the settings that are written, and names no other.
Its defaults are all converted, and the last check refuses nothing. -/
theorem resolveSection_reported {host : Host} (hmemory : 0 ≤ host.memory) (hspec : spec ∈ shipped host)
    (hm : ∀ e ∈ relevant spec.incoming raw, Measured spec.outgoing e) (heading : String) :
    Reported spec raw heading (resolveSection spec raw heading).result
      ∧ (∀ e, (resolveSection spec raw heading).result = .error (.config e) → ∀ issue ∈ e.issues,
        ∃ setting ∈ relevant spec.incoming raw, issue.path = issuePath heading setting.1)
      ∧ (∀ field ∈ spec.incoming.fields, field.default.value.isNull = false → accepts spec field = true)
      ∧ ∀ converted,
        convertSettings spec.outgoing (fillDefaults spec.incoming (spec.incoming.stripUnknown raw)) heading = .ok converted →
          validateOutgoing spec.outgoing converted heading = .ok converted := by
  have hc := coherent_of_mem_shipped hspec
  have hs := supplied_of_mem_shipped hspec
  have ha := accepts_of_mem_shipped hmemory hspec
  have hreported := reported_resolveSection hc hs ha hm heading
  refine ⟨hreported, fun e he => ?_, ha, fun converted => validateOutgoing_of_convertSettings hc hs⟩
  rw [he] at hreported
  exact hreported.exists_written

/-- Two settings that are refused, in the order in which they are written, and a `null` and a stranger that are not. -/
theorem resolveSection_reported_inOrder :
    ∃ writes reject, (resolveSection (commandProcessing ⟨4, 8192⟩) [(.text "memory-usage", .null),
        (.text "concurrent-writes", .text "0"), (.text "junk", .int 1), (.text "reject-large-commands", .text "maybe")]
        "command-processing").result
      = .error (.config { kind := .conversion, message := describe "invalid config value" "command-processing", issues :=
        [⟨issuePath "command-processing" (.text "concurrent-writes"), writes⟩,
          ⟨issuePath "command-processing" (.text "reject-large-commands"), reject⟩] }) := by
  have hwrites : Measured (commandProcessing ⟨4, 8192⟩).outgoing (.text "concurrent-writes", .text "0") := by
    refine ⟨List.forall_mem_singleton.mpr trivial, fun field hf n _ => ?_⟩
    cases hf
    trivial
  have hreject : Measured (commandProcessing ⟨4, 8192⟩).outgoing (.text "reject-large-commands", .text "maybe") :=
    ⟨List.forall_mem_singleton.mpr trivial, fun _ _ n hn => by cases hn⟩
  obtain ⟨hreported, -⟩ := @resolveSection_reported (commandProcessing ⟨4, 8192⟩) [(.text "memory-usage", .null),
      (.text "concurrent-writes", .text "0"), (.text "junk", .int 1), (.text "reject-large-commands", .text "maybe")]
    ⟨4, 8192⟩ (by decide) (by simp [shipped])
    (List.forall_mem_cons.mpr ⟨hwrites, List.forall_mem_singleton.mpr hreject⟩) "command-processing"
  generalize Logged.result _ = result at hreported ⊢
  cases hreported with
  | shapes hs _ => exact absurd rfl hs
  | conversions _ _ h =>
    have hrefused : unconverted (commandProcessing ⟨4, 8192⟩) [(.text "memory-usage", .null),
        (.text "concurrent-writes", .text "0"), (.text "junk", .int 1), (.text "reject-large-commands", .text "maybe")]
        = [(.text "concurrent-writes", .text "0"), (.text "reject-large-commands", .text "maybe")] := rfl
    rw [hrefused] at h
    obtain _ | ⟨⟨_, _, _, _, _, _, rfl⟩, _ | ⟨⟨_, _, _, _, _, _, rfl⟩, ⟨⟩⟩⟩ := h
    exact ⟨_, _, rfl⟩
  | resolved _ hu => cases hu

end Stanza.Schema
