import Stanza.Proofs.Schema.RoundTrip
import Stanza.Proofs.Value.Rendered

/-! # The settings that count

A section is resolved by its declared settings that are not `null`. Their order shows in the order of the result or of
the issues only, and all that the other settings leave are warnings.
-/
namespace Stanza.Schema

variable {spec : SectionSpec} {raw other data out : Settings} {heading : String}

def relevant (spec : Spec Incoming) (raw : Settings) : Settings := written (spec.stripUnknown raw)

theorem mem_relevant_iff {spec : Spec Incoming} {e : Value × Value} :
    e ∈ relevant spec raw ↔ e ∈ raw ∧ spec.declaresKey e.1 = true ∧ e.2.isNull = false := by
  rw [relevant, written, Spec.stripUnknown, List.mem_filter, List.mem_filter, Bool.not_eq_true', and_assoc]

theorem nodup_keys_relevant (spec : Spec Incoming) (hd : raw.Distinct) : (Settings.keys (relevant spec raw)).Nodup :=
  (List.filter_sublist.map _).nodup (spec.nodup_keys_stripUnknown hd)

/-- A `null` is as good as nothing. -/
theorem get_written (hn : (Settings.keys data).Nodup) (name : String) : (written data).get name = data.get name := by
  by_cases hnull : (data.get name).isNull = true
  · cases hv : (written data).get? name with
    | none =>
      rw [Settings.get, hv]
      cases hw : data.get name with
      | null => rfl
      | _ => rw [hw] at hnull; cases hnull
    | some v =>
      obtain ⟨hm, hv⟩ := List.mem_filter.mp (Settings.mem_of_get? hv)
      rw [Settings.get_of_get? (Settings.get?_of_mem hn hm)] at hnull
      rw [hnull] at hv
      cases hv
  · have hm := Settings.mem_of_get? (Settings.get?_of_get (Bool.eq_false_iff.mpr hnull))
    have hw : (written data).get? name = some (data.get name) :=
      Settings.get?_of_mem ((List.filter_sublist.map _).nodup hn) (List.mem_filter.mpr ⟨hm, by simpa using hnull⟩)
    exact Settings.get_of_get? hw

theorem get_of_relevant (hd : raw.Distinct) (hd' : other.Distinct)
    (hp : (relevant spec.incoming raw).Perm (relevant spec.incoming other)) (name : String) :
    (spec.incoming.stripUnknown raw).get name = (spec.incoming.stripUnknown other).get name := by
  have hget : (relevant spec.incoming raw).get? name = (relevant spec.incoming other).get? name :=
    Settings.get?_perm hp (nodup_keys_relevant _ hd) name
  rw [← get_written (spec.incoming.nodup_keys_stripUnknown hd), ← get_written (spec.incoming.nodup_keys_stripUnknown hd')]
  exact congrArg (·.getD .null) hget

/-! ## Numbers that can be dealt with -/

def Spans : Kind → Int → Prop
  | .minutes, n => (Span.ofMinutes n).Succeeds
  | .days, n => (Span.ofDays n).Succeeds
  | _, _ => True

theorem Spans.not_exceeds {kind : Kind} {n : Int} (h : Spans kind n) (e : Span.RangeError) : ¬ Exceeds kind n e := by
  intro he
  cases he with
  | minutes he =>
    rw [Spans, he] at h
    exact Except.not_succeeds_error _ h
  | days he =>
    rw [Spans, he] at h
    exact Except.not_succeeds_error _ h

/-- A setting without an integer of more than 4300 digits and without a count of minutes or days that is no span. -/
structure Measured (spec : Spec Outgoing) (e : Value × Value) : Prop where
  short : ∀ x ∈ e.2.leaves, x.Short
  spans : ∀ field, fieldOf? spec e.1 = some field → ∀ n, wholeNumber e.2 = .ok n → Spans field.kind n

theorem Measured.exists_literal {spec : Spec Outgoing} {e : Value × Value} (h : Measured spec e) :
    ∃ s, e.2.literal = .ok s := Value.succeeds_literal_iff_short.mpr h.short

theorem Measured.not_breaks {spec : Spec Outgoing} {e : Value × Value} (h : Measured spec e) (fault : Fault) :
    ¬ Breaks spec e fault := by
  intro hb
  cases hb with
  | unquotable hg hr hl =>
    obtain ⟨s, hs⟩ := h.exists_literal
    rw [hl] at hs
    cases hs
  | outOfRange hg hn hm he => exact (h.spans _ hg _ hn).not_exceeds _ he

theorem Measured.exists_convertEntry {spec : Spec Outgoing} {e : Value × Value} (h : Measured spec e)
    (heading : String) : ∃ r, convertEntry spec heading e = .ok r := by
  cases hr : convertEntry spec heading e with
  | ok r => exact ⟨r, rfl⟩
  | error fault => exact absurd (convertEntry_eq_error hr) (h.not_breaks fault)

/-! ## The stages as functions of what counts -/

def checkShapes (spec : Spec Incoming) (known : Settings) (heading : String) : Except Fault Unit := do
  let issues ← collectIssues (incomingIssue? heading known) spec.fields
  (ConfigError.raiseIfAny .schema (describe "invalid config" heading) issues).mapError Fault.config

theorem result_validateIncoming (spec : Spec Incoming) (raw : Settings) (heading : String) :
    (validateIncoming spec raw heading).result
      = (fun _ => spec.stripUnknown raw) <$> checkShapes spec (spec.stripUnknown raw) heading := by
  simp only [validateIncoming, warnUnknown, checkShapes, Logged.result_bind, Logged.result_warn, Logged.result_pure,
    Logged.result_lift]
  cases collectIssues (incomingIssue? heading (spec.stripUnknown raw)) spec.fields with
  | error fault => rfl
  | ok issues =>
    cases issues with
    | nil => rfl
    | cons issue issues => rfl

theorem result_resolveSection (spec : SectionSpec) (raw : Settings) (heading : String) :
    (resolveSection spec raw heading).result = (do
      checkShapes spec.incoming (spec.incoming.stripUnknown raw) heading
      let converted ← convertSettings spec.outgoing (fillDefaults spec.incoming (spec.incoming.stripUnknown raw)) heading
      validateOutgoing spec.outgoing converted heading) := by
  simp only [resolveSection, Logged.result_bind, Logged.result_lift, result_validateIncoming]
  cases checkShapes spec.incoming (spec.incoming.stripUnknown raw) heading with
  | error fault => rfl
  | ok _ => rfl

theorem checkShapes_congr {spec : Spec Incoming} {known known' : Settings}
    (h : ∀ name, known.get name = known'.get name) (heading : String) :
    checkShapes spec known heading = checkShapes spec known' heading := by
  have hissue : incomingIssue? heading known = incomingIssue? heading known' := by
    funext field
    simp only [incomingIssue?, h]
  rw [checkShapes, hissue, ← checkShapes]

/-- What is filled in hangs on the names that are written. -/
theorem exists_fillDefaults (hn : (spec.incoming.fields.map Incoming.name).Nodup)
    (hp : (relevant spec.incoming raw).Perm (relevant spec.incoming other)) : ∃ filled,
      fillDefaults spec.incoming (spec.incoming.stripUnknown raw) = relevant spec.incoming raw ++ filled ∧
        fillDefaults spec.incoming (spec.incoming.stripUnknown other) = relevant spec.incoming other ++ filled := by
  have hmissing : isMissing (relevant spec.incoming raw) = isMissing (relevant spec.incoming other) := by
    funext field
    rw [isMissing, isMissing, Settings.has_perm hp]
  refine ⟨_, fillDefaults_eq hn _, ?_⟩
  change _ = _ ++ List.map defaultEntry (spec.incoming.fields.filter (isMissing (relevant spec.incoming raw)))
  rw [hmissing]
  exact fillDefaults_eq hn _

/-! ## Two runs -/

/-- The same mapping, errors of the same kind and message with the same issues in some order, or the same fault. -/
inductive Alike : Except Fault Settings → Except Fault Settings → Prop
  | resolved {out out' : Settings} (h : out.SameMapping out') : Alike (.ok out) (.ok out')
  | refused {kind : ConfigErrorKind} {message : String} {issues issues' : List Issue} (h : issues.Perm issues') :
    Alike (.error (.config { kind, message, issues })) (.error (.config { kind, message, issues := issues' }))
  | stopped (fault : Fault) : Alike (.error fault) (.error fault)

theorem Alike.bind {x y : Except Fault Settings} {f : Settings → Except Fault Settings} (h : Alike x y)
    (hf : ∀ out out', out.SameMapping out' → Alike (f out) (f out')) : Alike (x >>= f) (y >>= f) := by
  cases h with
  | resolved h => exact hf _ _ h
  | refused h => exact .refused h
  | stopped fault => exact .stopped fault

/-- No issues or issues to be raised, in either run. -/
theorem alike_of_raise {kind : ConfigErrorKind} {message : String} {issues issues' : List Issue}
    (hi : issues.Perm issues') {x y : Except Fault Settings} (h : issues = [] → Alike x y) :
    Alike ((ConfigError.raiseIfAny kind message issues).mapError Fault.config >>= fun _ => x)
      ((ConfigError.raiseIfAny kind message issues').mapError Fault.config >>= fun _ => y) := by
  cases issues with
  | nil =>
    rw [List.nil_perm.mp hi]
    exact h rfl
  | cons issue issues =>
    cases issues' with
    | nil => cases List.perm_nil.mp hi
    | cons issue' issues' => exact .refused hi

/-- Steps that all give a result give the same results in any order. -/
theorem exists_mapM_of_perm {α β : Type} {f : α → Except Fault β} {xs ys : List α} (hp : xs.Perm ys)
    (hf : ∀ x ∈ xs, ∃ b, f x = .ok b) : ∃ as bs, xs.mapM f = .ok as ∧ ys.mapM f = .ok bs ∧ as.Perm bs := by
  induction hp with
  | nil => exact ⟨[], [], rfl, rfl, .nil⟩
  | @cons x xs ys _ ih =>
    obtain ⟨⟨b, hb⟩, hf⟩ := List.forall_mem_cons.mp hf
    obtain ⟨as, bs, has, hbs, hperm⟩ := ih hf
    refine ⟨b :: as, b :: bs, ?_, ?_, hperm.cons b⟩
    · rw [List.mapM_cons, hb, has]
      rfl
    · rw [List.mapM_cons, hb, hbs]
      rfl
  | swap x y xs =>
    obtain ⟨⟨b, hb⟩, hf⟩ := List.forall_mem_cons.mp hf
    obtain ⟨⟨c, hc⟩, hf⟩ := List.forall_mem_cons.mp hf
    obtain ⟨as, has⟩ := Except.succeeds_mapM_iff.mpr hf
    refine ⟨b :: c :: as, c :: b :: as, ?_, ?_, .swap _ _ _⟩
    · rw [List.mapM_cons, hb, List.mapM_cons, hc, has]
      rfl
    · rw [List.mapM_cons, hc, List.mapM_cons, hb, has]
      rfl
  | trans hp _ ih ih' =>
    obtain ⟨as, bs, has, hbs, hperm⟩ := ih hf
    obtain ⟨bs', cs, hbs', hcs, hperm'⟩ := ih' fun x hx => hf x (hp.mem_iff.mpr hx)
    rw [hbs] at hbs'
    cases hbs'
    exact ⟨as, cs, has, hcs, hperm.trans hperm'⟩

theorem convertSettings_alike {spec : Spec Outgoing} {filled : Settings} (hp : data.Perm other)
    (hn : (Settings.keys (other ++ filled)).Nodup) (hm : ∀ e ∈ data, Measured spec e) (heading : String) :
    Alike (convertSettings spec (data ++ filled) heading) (convertSettings spec (other ++ filled) heading) := by
  obtain ⟨entries, entries', hentries, hentries', hperm⟩ :=
    exists_mapM_of_perm hp fun e he => (hm e he).exists_convertEntry heading
  cases hfilled : filled.mapM (convertEntry spec heading) with
  | error fault =>
    rw [convertSettings, convertSettings, List.mapM_append, List.mapM_append, hentries, hentries', hfilled]
    exact .stopped fault
  | ok more =>
    have hall : (entries ++ more).Perm (entries' ++ more) := hperm.append_right more
    have hrun : (data ++ filled).mapM (convertEntry spec heading) = .ok (entries ++ more) := by
      rw [List.mapM_append, hentries, hfilled]
      rfl
    have hrun' : (other ++ filled).mapM (convertEntry spec heading) = .ok (entries' ++ more) := by
      rw [List.mapM_append, hentries', hfilled]
      rfl
    rw [convertSettings, convertSettings, hrun, hrun']
    refine alike_of_raise (hall.filterMap _) fun hnil => .resolved ⟨hall.filterMap _, ?_⟩
    have hnil' : issuesOf (entries' ++ more) = [] := List.perm_nil.mp (hnil ▸ (hall.filterMap _).symm)
    have hconverted : convertSettings spec (other ++ filled) heading = .ok (settingsOf (entries' ++ more)) := by
      rw [convertSettings, hrun']
      change ((ConfigError.raiseIfAny _ _ (issuesOf (entries' ++ more))).mapError Fault.config >>= fun _ => _) = _
      rw [hnil']
      rfl
    rwa [← keys_of_converts (convertSettings_eq_ok_iff.mp hconverted)]

theorem validateOutgoing_alike {spec : Spec Outgoing} (h : data.SameMapping other) (heading : String) :
    Alike (validateOutgoing spec data heading) (validateOutgoing spec other heading) := by
  have hfield : outgoingIssue? heading data = outgoingIssue? heading other := by
    funext field
    rw [outgoingIssue?, h.get?, ← outgoingIssue?]
  have hhas : (fun name => !data.has name) = fun name => !other.has name := by
    funext name
    rw [Settings.has_perm h.perm]
  have hunknown : (spec.unknownKeys data).Perm (spec.unknownKeys other) := (h.perm.map _).filter _
  refine alike_of_raise ?_ fun _ => .resolved h
  rw [outgoingIssues, outgoingIssues, hfield, hhas]
  exact ((hunknown.map _).append_right _).append_right _

/-! ## Sections -/

theorem resolveSection_alike (hn : (spec.incoming.fields.map Incoming.name).Nodup) (hd : raw.Distinct)
    (hd' : other.Distinct) (hp : (relevant spec.incoming raw).Perm (relevant spec.incoming other))
    (hm : ∀ e ∈ relevant spec.incoming raw, Measured spec.outgoing e) (heading : String) :
    Alike (resolveSection spec raw heading).result (resolveSection spec other heading).result := by
  obtain ⟨filled, hraw, hother⟩ := exists_fillDefaults hn hp
  rw [result_resolveSection, result_resolveSection, hraw, hother, checkShapes_congr (get_of_relevant hd hd' hp)]
  cases checkShapes spec.incoming (spec.incoming.stripUnknown other) heading with
  | error fault => exact .stopped fault
  | ok _ =>
    have hkeys : (Settings.keys (relevant spec.incoming other ++ filled)).Nodup :=
      hother ▸ nodup_keys_fillDefaults (spec.incoming.nodup_keys_stripUnknown hd')
    exact (convertSettings_alike hp hkeys hm heading).bind fun _ _ h => validateOutgoing_alike h heading

theorem mem_keys_of_relevant (hn : (spec.incoming.fields.map Incoming.name).Nodup)
    (h : (resolveSection spec raw heading).result = .ok out) {e : Value × Value} (he : e ∈ relevant spec.incoming raw) :
    e.1 ∈ Settings.keys out := by
  obtain ⟨_, hconverts, _⟩ := resolveSection_eq_ok_iff.mp h
  rw [← keys_of_converts hconverts, fillDefaults_eq hn]
  exact List.mem_map_of_mem (List.mem_append_left _ he)

/-- Two mappings with the same declared settings that are not `null`, in whatever order and with whatever else between
them, are resolved alike. Each undeclared key leaves a warning, and each setting that counts is in the result. -/
theorem resolveSection_relevant (hn : (spec.incoming.fields.map Incoming.name).Nodup) (hd : raw.Distinct)
    (hd' : other.Distinct) (hp : (relevant spec.incoming raw).Perm (relevant spec.incoming other))
    (hm : ∀ e ∈ relevant spec.incoming raw, Measured spec.outgoing e) (heading : String) :
    Alike (resolveSection spec raw heading).result (resolveSection spec other heading).result
      ∧ ∀ data ∈ [raw, other],
        (resolveSection spec data heading).warnings = (spec.incoming.unknownKeys data).map (unknownKeyWarning heading)
        ∧ ∀ out, (resolveSection spec data heading).result = .ok out →
          ∀ e ∈ relevant spec.incoming data, e.1 ∈ Settings.keys out := by
  refine ⟨resolveSection_alike hn hd hd' hp hm heading, fun data _ => ⟨resolveSection_warnings _ _ _, ?_⟩⟩
  intro out hout e he
  exact mem_keys_of_relevant hn hout he

/-- Two settings that cannot be converted, one way round and the other, with strangers and a `null` between them. -/
theorem resolveSection_relevant_shuffled :
    ∃ issues, (resolveSection writeDatabase [(.int 7, .text "x"), (.text "conn-max-age", .int (-5)),
        (.text "report-ttl", .text "soon")] "database").result
        = .error (.config { kind := .conversion, message := describe "invalid config value" "database", issues })
      ∧ (issues.map Issue.path).Perm
        [issuePath "database" (.text "report-ttl"), issuePath "database" (.text "conn-max-age")] := by
  have hreport : Measured writeDatabase.outgoing (.text "report-ttl", .text "soon") :=
    ⟨List.forall_mem_singleton.mpr trivial, fun field hf n hn => by cases hn⟩
  have hage : Measured writeDatabase.outgoing (.text "conn-max-age", .int (-5)) := by
    refine ⟨List.forall_mem_singleton.mpr (by decide : Text.Writable (-5)), fun field hf n hn => ?_⟩
    cases hn
    cases hf
    exact ⟨_, rfl⟩
  obtain ⟨halike, -⟩ := @resolveSection_relevant writeDatabase
    [(.text "report-ttl", .text "soon"), (.text "junk", .int 1), (.text "conn-max-age", .int (-5)), (.text "user", .null)]
    [(.int 7, .text "x"), (.text "conn-max-age", .int (-5)), (.text "report-ttl", .text "soon")]
    coherent_writeDatabase.nodup_incoming (by decide) (by decide) (.swap _ _ _)
    (List.forall_mem_cons.mpr ⟨hreport, List.forall_mem_singleton.mpr hage⟩) "database"
  obtain ⟨report, age, hraw⟩ : ∃ report age, (resolveSection writeDatabase [(.text "report-ttl", .text "soon"),
      (.text "junk", .int 1), (.text "conn-max-age", .int (-5)), (.text "user", .null)] "database").result
      = .error (.config { kind := .conversion, message := describe "invalid config value" "database", issues :=
        [⟨issuePath "database" (.text "report-ttl"), report⟩, ⟨issuePath "database" (.text "conn-max-age"), age⟩] }) :=
    ⟨_, _, rfl⟩
  rw [hraw] at halike
  generalize Logged.result _ = result at halike ⊢
  cases halike with
  | refused h => exact ⟨_, rfl, (h.map Issue.path).symm⟩
  | stopped => exact ⟨_, rfl, .refl _⟩

end Stanza.Schema
