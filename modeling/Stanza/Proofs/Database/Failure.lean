import Stanza.Proofs.Database.Resolved
import Stanza.Proofs.Schema.Failure
import Stanza.Proofs.Schema.Origin
import Stanza.Proofs.Section.Gathered

/-! # Databases that cannot be resolved

The stages of a database section one after the other, with what each of them can fail with. A profile without a user is
met by the defaults for migrations if its user is written as an empty text and no user name is. Apart from that
only settings stop resolution that cannot be converted or checked, and each of them is written in the document.
-/
namespace Stanza

theorem Value.ofTexts_inj {xs ys : List String} (h : Value.ofTexts xs = Value.ofTexts ys) : xs = ys :=
  List.map_injective_iff.mpr (fun _ _ h => Value.text.inj h) (Value.list.inj h)

theorem Settings.mem_insert {es : Settings} {k w v : Value} {name : String} (h : (.text name, v) ∈ es.insert k w) :
    (.text name, v) ∈ es ∨ (.text name, v) = (k, w) := by
  induction es with
  | nil => exact .inr (List.mem_singleton.mp h)
  | cons e es ih =>
    rw [insert] at h
    split at h
    · next hk =>
      rcases List.mem_cons.mp h with he | h
      · obtain ⟨hname, rfl⟩ := Prod.ext_iff.mp he
        rw [← hname] at hk
        exact .inr (by rw [Value.text_same_iff.mp hk])
      · exact .inl (List.mem_cons_of_mem _ h)
    · rcases List.mem_cons.mp h with rfl | h
      · exact .inl List.mem_cons_self
      · exact (ih h).imp_left (List.mem_cons_of_mem _)

/-- Under a text stands what is laid over the rest or what is under it. -/
theorem Settings.mem_overlay {under above : Settings} {name : String} {v : Value}
    (h : (.text name, v) ∈ under.overlay above) : (.text name, v) ∈ under ∨ (.text name, v) ∈ above := by
  induction above generalizing under with
  | nil => exact .inl h
  | cons e above ih =>
    rcases ih h with h | h
    · exact (Settings.mem_insert h).imp_right fun he => List.mem_cons.mpr (.inl he)
    · exact .inr (List.mem_cons_of_mem _ h)

namespace Section

variable {document : Document} {fault : Fault}

theorem addSection_eq_error {g : Grouping} {key : String} {value : Value} {e : ConfigError}
    (h : g.addSection key value = .error e) : e.kind = .grammar ∨ e.kind = .layout := by
  rw [Grouping.addSection] at h
  obtain h | ⟨header, hp, h⟩ := Except.bind_eq_error_iff.mp h
  · obtain ⟨flaw, _, rfl⟩ := Except.mapError_eq_error_iff.mp h
    exact .inl rfl
  obtain h | ⟨settings, _, h⟩ := Except.bind_eq_error_iff.mp h
  · cases value <;> cases h <;> exact .inr rfl
  split at h
  · split at h <;> cases h
    exact .inr rfl
  · next hs =>
    -- a key without a subsection is the name of its section, so it has been read as itself
    rw [if_neg (not_not.mpr (Header.name_eq_of_parse hp hs))] at h
    split at h <;> cases h
    exact .inr rfl

theorem coalesce_eq_error (h : coalesce Database.isHeadingValue document = .error fault) :
    fault.Ordinary ∨ (fault = .wrongType ∧ ¬ Settings.TextKeys document) := by
  obtain ⟨⟨key, value⟩, hm, g, h⟩ := Except.exists_of_foldlM_eq_error (Except.map_eq_error_iff.mp h)
  cases hkey : key.isText with
  | false =>
    rw [Database.add_of_not_text hkey] at h
    split at h <;> cases h
    refine .inr ⟨rfl, fun ht => ?_⟩
    obtain ⟨name, rfl⟩ := ht key (List.mem_map_of_mem hm)
    cases hkey
  | true =>
    obtain ⟨name, rfl⟩ := Value.exists_text_of_isText hkey
    simp only [Grouping.add, Database.isHeadingValue] at h
    cases hk : Database.isHeading name with
    | false =>
      rw [hk] at h
      cases h
    | true =>
      rw [hk] at h
      obtain ⟨e, he, rfl⟩ := Except.mapError_eq_error_iff.mp h
      refine .inl ⟨e, rfl, ?_⟩
      rcases addSection_eq_error he with hk | hk <;> rw [hk] <;> decide

/-- A section fails with the first of its own settings and its subsections that does. -/
theorem resolve_eq_error_iff {fix : Option String → Settings → Logged Settings} {s : Section} :
    (s.resolve fun name _ settings => fix name settings).result = .error fault ↔
      ((none, s.settings) :: s.subsections.map fun e => (some e.1, e.2)).mapM (fun a => (fix a.1 a.2).result) =
        .error fault := by
  have hsubs : (s.subsections.mapM fun e => do return (e.1, ← fix (some e.1) e.2) : Logged (List (String × Settings))).result
      = .error fault ↔ (s.subsections.map fun e => (some e.1, e.2)).mapM (fun a => (fix a.1 a.2).result) = .error fault := by
    rw [Logged.result_mapM, List.mapM_map, Except.mapM_eq_error_iff, Except.mapM_eq_error_iff]
    simp [Logged.result_map, Except.map_eq_error_iff, Except.map_eq_ok_iff]
  rw [resolve, Logged.result_bind_eq_error_iff, List.mapM_cons, Except.bind_eq_error_iff]
  refine or_congr_right (exists_congr fun wide => and_congr_right fun _ => ?_)
  rw [Except.bind_eq_error_iff, ← hsubs]
  by_cases hs : s.hasSubsections = true
  · rw [if_pos hs, Logged.result_bind_eq_error_iff]
    simp only [Logged.result_pure, reduceCtorEq, and_false, exists_false, Except.pure_ne_error]
  · have hnil : s.subsections = [] := by simpa [hasSubsections] using hs
    rw [if_neg hs, hnil]
    simp [Except.pure_ne_error]

end Section

namespace Database

open Schema

variable {profile settings : Settings} {name : Option String} {fault : Fault}

/-! ## Profiles without a user -/

/-- The settings that are tried one after the other: those of the section, and those of each subsection laid over them. -/
def attempts (s : Section) : List (Option String × Settings) :=
  (none, s.settings) :: s.subsections.map fun e => (some e.1, s.settings.overlay e.2)

theorem mem_attempts_of_mem_profiles {s : Section} {e : Option String × Settings} (h : e ∈ (cascade s).profiles) :
    e ∈ attempts s := by
  rcases mem_profiles_cascade h with ⟨hname, hs⟩ | ⟨p, hp, hname, hs⟩
  · exact List.mem_cons.mpr (.inl (Prod.ext hname hs))
  · exact List.mem_cons_of_mem _ (List.mem_map.mpr ⟨p, hp, Prod.ext hname.symm hs.symm⟩)

theorem resolve_cascade_eq_error_iff {s : Section} :
    ((cascade s).resolve fun name _ settings => fixUp name settings).result = .error fault ↔
      ∃ before a after, attempts s = before ++ a :: after ∧ (∀ b ∈ before, ∃ profile, (fixUp b.1 b.2).result = .ok profile) ∧
        (fixUp a.1 a.2).result = .error fault := by
  rw [Section.resolve_eq_error_iff, Except.mapM_eq_error_iff, cascade, List.map_map]
  rfl

/-- What is written of a user and a user name is an empty user and no name. -/
def EmptyUser (settings : Settings) : Prop :=
  (written settings).get? "user" = some (.text "") ∧
    ∀ value, (written settings).get? "username" = some value → value = .text ""

def missingUser : ConfigError where
  kind := .invariant
  message := "database user must be reconciled before defaulting migrator credentials"

theorem defaultMigrator_eq_error_iff :
    defaultMigrator profile = .error fault ↔ (profile.get "user").isTrue = false ∧ fault = .config missingUser := by
  rw [defaultMigrator]
  cases (profile.get "user").isTrue with
  | true => simp
  | false => simp [missingUser, eq_comm]

/-- A text of a database has no default, so it is resolved to what is written. -/
theorem get?_text_of_resolveSection {heading key : String} (hk : key = "user" ∨ key = "username")
    (h : (resolveSection writeDatabase settings heading).result = .ok profile) :
    (∀ v, profile.get? key = some v → ∃ value, (written settings).get? key = some value ∧
      ∃ s, textOf value = .ok s ∧ .text s = v) ∧
    ∀ value, (written settings).get? key = some value → ∃ s, textOf value = .ok s ∧ profile.get? key = some (.text s) := by
  have hfield : (∃ field ∈ writeDatabase.incoming.fields, field.name = key ∧ field.default.value.isNull = true) ∧
      key ∈ textFields := by
    rcases hk with rfl | rfl <;> decide
  obtain ⟨⟨field, hf, rfl, hd⟩, htext⟩ := hfield
  obtain ⟨_, hconverts, _⟩ := resolveSection_eq_ok_iff.mp h
  have hget := get?_fillDefaults coherent_writeDatabase.nodup_incoming hf hd settings
  obtain ⟨hto, hfrom⟩ := get?_of_converts hconverts (outgoing_textField htext)
  simp only [hget, convert_text_iff (rfl : (optional field.name .text).kind = .text)] at hto hfrom
  refine ⟨hto, fun value hv => ?_⟩
  obtain ⟨v, hv, s, hs, rfl⟩ := hfrom value hv
  exact ⟨s, hs, hv⟩

theorem isTrue_text {s : String} : (Value.text s).isTrue = false ↔ s = "" := by
  simp [Value.isTrue]

/-- The user is there but empty after it has been reconciled with the user name. -/
theorem prepared_user_iff (hs : Sound writeDatabase profile) :
    ((prepared profile).has "user" = true ∧ ((prepared profile).get "user").isTrue = false) ↔
      profile.get? "user" = some (.text "") ∧ ∀ v, profile.get? "username" = some v → v = .text "" := by
  have huser : (defaultEventRetention profile).get? "user" = profile.get? "user" :=
    get?_defaultEventRetention_of_ne (by decide)
  have husername : (defaultEventRetention profile).get? "username" = profile.get? "username" :=
    get?_defaultEventRetention_of_ne (by decide)
  have hempty : ∀ name ∈ textFields, ∀ v, profile.get? name = some v → (v.isTrue = false ↔ v = .text "") := by
    intro name hn v hv
    obtain ⟨s, rfl⟩ := exists_text_of_textField hs hn hv
    rw [isTrue_text, Value.text.injEq]
  by_cases ht : (userOf (defaultEventRetention profile)).isTrue = true
  · obtain ⟨user, htrue, hu, _⟩ := get?_withUser (show (userOf (prepared profile)).isTrue = true by
      rw [prepared, withUser, if_pos ht, isTrue_userOf_iff, Settings.get, Settings.get?_set_of_ne _ (by decide),
        Settings.get?_set_self]
      exact .inl ht)
    refine iff_of_false ?_ ?_
    · rintro ⟨_, hf⟩
      rw [prepared, Settings.get_of_get? hu, htrue] at hf
      cases hf
    · rintro ⟨hu, hn⟩
      rw [isTrue_userOf_iff, Settings.get, huser, hu, Settings.get, husername] at ht
      cases hv : profile.get? "username" with
      | none => rw [hv] at ht; simp [Value.isTrue] at ht
      | some v => rw [hv, hn v hv] at ht; simp [Value.isTrue] at ht
  · have hp : prepared profile = defaultEventRetention profile := by rw [prepared, withUser, if_neg ht]
    rw [isTrue_userOf_iff, not_or, Bool.not_eq_true, Bool.not_eq_true] at ht
    rw [hp, Settings.has_eq_isSome, huser, Option.isSome_iff_exists]
    constructor
    · rintro ⟨⟨v, hv⟩, hf⟩
      rw [Settings.get, huser, hv] at hf
      refine ⟨by rw [hv, (hempty _ (by decide) v hv).mp hf], fun w hw => (hempty _ (by decide) w hw).mp ?_⟩
      have hname := ht.2
      rwa [Settings.get, husername, hw] at hname
    · rintro ⟨hu, _⟩
      exact ⟨⟨_, hu⟩, ht.1⟩

/-- A profile cannot be fixed up if its section is not resolved, or for an empty user. -/
theorem fixUp_eq_error_iff : (fixUp name settings).result = .error fault ↔
    (resolveSection writeDatabase settings (label name)).result = .error fault ∨
      (∃ converted, (resolveSection writeDatabase settings (label name)).result = .ok converted) ∧ EmptyUser settings ∧
        fault = .config missingUser := by
  simp only [fixUp, Logged.result_bind_eq_error_iff, result_reconcileUser, Except.ok.injEq, exists_eq_left', reduceCtorEq,
    false_or]
  refine or_congr_right ?_
  rw [exists_and_right.symm]
  refine exists_congr fun converted => and_congr_right fun hr => ?_
  have hs := sound_of_resolveSection coherent_writeDatabase hr
  obtain ⟨hto, hfrom⟩ := get?_text_of_resolveSection (.inl rfl) hr
  obtain ⟨hto', hfrom'⟩ := get?_text_of_resolveSection (.inr rfl) hr
  have hiff : EmptyUser settings ↔ (prepared converted).has "user" = true ∧ ((prepared converted).get "user").isTrue = false := by
    rw [prepared_user_iff hs]
    constructor
    · rintro ⟨hu, hn⟩
      obtain ⟨s, hs, hv⟩ := hfrom _ hu
      cases hs
      refine ⟨hv, fun v hv => ?_⟩
      obtain ⟨value, hvalue, s, hs, rfl⟩ := hto' v hv
      cases hn value hvalue
      cases hs
      rfl
    · rintro ⟨hu, hn⟩
      obtain ⟨value, hvalue, s, hs, hv⟩ := hto _ hu
      cases hv
      refine ⟨by rw [hvalue, textOf_eq_empty_iff.mp hs], fun value hvalue => ?_⟩
      obtain ⟨s, hs, hv⟩ := hfrom' value hvalue
      cases hn _ hv
      exact textOf_eq_empty_iff.mp hs
  rw [hiff]
  change Logged.result (if (prepared converted).has "user" = true then _ else _) = _ ↔ _
  cases (prepared converted).has "user" with
  | true =>
    rw [if_pos rfl, Logged.result_lift]
    exact defaultMigrator_eq_error_iff.trans (by simp [prepared])
  | false => simp

/-! ## Settings that stop resolution -/

theorem checkSubname_eq_error {heading : String} (h : checkSubname profile heading = .error fault) :
    fault.Ordinary := by
  rw [checkSubname] at h
  split at h
  · split at h <;> cases h
    exact ⟨_, rfl, nofun⟩
  · cases h
    exact ⟨_, rfl, nofun⟩

theorem checkRetention_eq_error {events reports : Period}
    (he : profile.get? "resource-events-ttl" = some (.period events))
    (hr : profile.get? "report-ttl" = some (.period reports)) (h : checkRetention profile = .error fault) :
    fault.Ordinary ∨
      ∃ p e, (p = events ∨ p = reports) ∧ p.toSpan = .error e ∧ fault = .outOfRange e := by
  simp only [checkRetention, Settings.get_of_get? he, Settings.get_of_get? hr, Value.isNull, Bool.or_self,
    Bool.false_eq_true, if_false] at h
  obtain h | ⟨kept, _, h⟩ := Except.bind_eq_error_iff.mp h
  · obtain ⟨e, he, rfl⟩ := Except.mapError_eq_error_iff.mp h
    exact .inr ⟨events, e, .inl rfl, he, rfl⟩
  obtain h | ⟨limit, _, h⟩ := Except.bind_eq_error_iff.mp h
  · obtain ⟨e, he, rfl⟩ := Except.mapError_eq_error_iff.mp h
    exact .inr ⟨reports, e, .inr rfl, he, rfl⟩
  · split at h <;> cases h
    exact .inl ⟨_, rfl, fun h => by cases h⟩

/-- What the fix-ups leave as it is. -/
theorem get?_of_fixUp (h : (fixUp name settings).result = .ok profile) : ∃ converted,
    (resolveSection writeDatabase settings (label name)).result = .ok converted ∧
    (profile.get? "report-ttl" = converted.get? "report-ttl" ∧
      profile.get? "facts-blacklist" = converted.get? "facts-blacklist") ∧
    (profile.get? "resource-events-ttl" = converted.get? "resource-events-ttl" ∨
      profile.get? "resource-events-ttl" = converted.get? "report-ttl") := by
  obtain ⟨converted, hr, hf⟩ := fixUp_eq_ok_iff.mp h
  have hprofile : ∀ key, key ≠ "user" → key ≠ "username" → key ≠ "migrator-username" → key ≠ "migrator-password" →
      profile.get? key = (defaultEventRetention converted).get? key := by
    intro key hu hn hmu hmp
    have hprepared : (prepared converted).get? key = (defaultEventRetention converted).get? key :=
      get?_withUser_of_ne hu hn
    split at hf
    · obtain ⟨_, rfl⟩ := hf
      rw [get?_withMigrator_of_ne hmu hmp, hprepared]
    · rw [← hf, hprepared]
  simp only [hprofile "report-ttl" (by decide) (by decide) (by decide) (by decide),
    hprofile "facts-blacklist" (by decide) (by decide) (by decide) (by decide),
    hprofile "resource-events-ttl" (by decide) (by decide) (by decide) (by decide)]
  refine ⟨converted, hr, ⟨get?_defaultEventRetention_of_ne (by decide), get?_defaultEventRetention_of_ne (by decide)⟩, ?_⟩
  rw [defaultEventRetention]
  split
  · next hd =>
    obtain ⟨v, hv⟩ := Settings.has_iff_get?.mp (Bool.and_eq_true_iff.mp hd).2
    exact .inr (by rw [Settings.get?_set_self, hv, Settings.get_of_get? hv])
  · exact .inl rfl

theorem exists_texts_of_settled {field : Outgoing} {v : Value} (h : Settled field v) (hk : field.kind = .texts) :
    ∃ parts, v = Value.ofTexts parts := by
  cases h with
  | texts _ _ => exact ⟨_, rfl⟩
  | _ hkind => cases hk.symm.trans hkind

section

variable [Pattern.Compiler]

/-- How a written setting stops resolution: it cannot be converted or quoted, it is a period that is no span, or it
lists a pattern that fails to compile in another way than by being malformed. -/
inductive Stops : Value × Value → Fault → Prop
  | converting {e : Value × Value} {fault : Fault} (h : Breaks writeDatabase.outgoing e fault) : Stops e fault
  | retention {name s : String} {value : Value} {p : Period} {e : Span.RangeError}
    (hname : name = "report-ttl" ∨ name = "resource-events-ttl") (hs : textOf value = .ok s) (hp : period s = .ok p)
    (he : p.toSpan = .error e) : Stops (.text name, value) (.outOfRange e)
  | pattern {value : Value} {sources : List String} {source : String} {fault : Fault}
    (hl : textList value = .ok sources) (hm : source ∈ sources) (hc : compilePattern (.text source) = .error fault) :
    Stops (.text "facts-blacklist", value) fault

/-- What is checked for reading is checked alike for writing. -/
theorem Stops.of_breaks_database {e : Value × Value} (h : Breaks Schema.database.outgoing e fault) : Stops e fault := by
  have hget : ∀ {name : String} {field : Outgoing}, Schema.database.outgoing.get? name = some field →
      writeDatabase.outgoing.get? name = some field := by
    intro name field hg
    obtain ⟨hf, rfl⟩ := Spec.get?_eq_some hg
    exact writeDatabase_get? field hf
  cases h with
  | unquotable hg hr hl => exact .converting (.unquotable (hget hg) hr hl)
  | outOfRange hg hn hm he => exact .converting (.outOfRange (hget hg) hn hm he)

/-- Of a profile whose blacklist is a list of texts. -/
theorem blacklist_eq_error (hl : ∀ v, profile.get? "facts-blacklist" = some v → ∃ sources, v = Value.ofTexts sources)
    (h : blacklist profile = .error fault) : fault.Ordinary ∨
      ∃ sources, profile.get? "facts-blacklist" = some (Value.ofTexts sources) ∧
        ∃ source ∈ sources, compilePattern (.text source) = .error fault := by
  simp only [blacklist] at h
  split at h
  · cases h
  split at h
  · cases h
  · next ht =>
    have hget := Settings.get?_of_isTrue (by simpa using ht)
    obtain ⟨sources, hv⟩ := hl _ hget
    rw [hv] at h hget
    obtain h | ⟨items, hi, h⟩ := Except.bind_eq_error_iff.mp h
    · cases h
    cases hi
    obtain h | ⟨compiled, _, h⟩ := Except.bind_eq_error_iff.mp h
    · obtain ⟨before, item, after, hitems, _, hc⟩ := Except.mapM_eq_error_iff.mp h
      obtain ⟨source, hs, rfl⟩ := List.mem_map.mp (hitems ▸ List.mem_append_right before List.mem_cons_self)
      exact .inr ⟨sources, hget, source, hs, hc⟩
    · split at h <;> cases h
      exact .inl ⟨_, rfl, fun h => by cases h⟩

/-- A period that is no span has been written: the default is fourteen days. -/
theorem exists_stops_of_period {heading key : String} (hk : key = "report-ttl" ∨ key = "resource-events-ttl")
    (h : (resolveSection writeDatabase settings heading).result = .ok profile) {p : Period}
    (hp : profile.get? key = some (.period p)) {e : Span.RangeError} (he : p.toSpan = .error e) :
    ∃ setting ∈ settings, Stops setting (.outOfRange e) := by
  obtain ⟨field, hg, hkind⟩ : ∃ field, writeDatabase.outgoing.get? key = some field ∧ field.kind = .period := by
    rcases hk with rfl | rfl <;> exact ⟨_, rfl, rfl⟩
  obtain ⟨value, hconvert, hvalue⟩ := exists_raw_of_resolveSection coherent_writeDatabase h hg hp
  obtain ⟨s, hs, q, hq, hqp⟩ := (convert_period_iff hkind).mp hconvert
  cases hqp
  rcases hvalue with hm | ⟨field, hf, rfl, rfl, _⟩
  · exact ⟨_, hm, .retention hk hs hq he⟩
  · have hdefault : ∀ field ∈ writeDatabase.incoming.fields, (field.name = "report-ttl" ∨ field.name = "resource-events-ttl") →
        field.default.value.isNull = false → field.default.value.same (.text "14d") = true := by decide
    have hvalue := Value.same_text_iff.mp (hdefault field hf hk (by assumption))
    rw [hvalue] at hs
    cases hs
    have hread : period "14d" = .ok { days := 14 } := rfl
    rw [hread] at hq
    cases hq
    have hspan : (Period.toSpan { days := 14 }).toOption.isSome = true := by decide
    rw [he] at hspan
    cases hspan

/-- A pattern that does not compile has been written: there is no default. -/
theorem exists_stops_of_pattern {spec : SectionSpec} (hspec : spec = writeDatabase ∨ spec = Schema.database) {heading : String}
    (h : (resolveSection spec settings heading).result = .ok profile) {sources : List String}
    (hl : profile.get? "facts-blacklist" = some (Value.ofTexts sources)) {source : String} (hm : source ∈ sources)
    (hc : compilePattern (.text source) = .error fault) : ∃ setting ∈ settings, Stops setting fault := by
  have hcoherent : Coherent spec := by
    rcases hspec with rfl | rfl
    · exact coherent_writeDatabase
    · exact coherent_database
  have hg : spec.outgoing.get? "facts-blacklist" = some (optional "facts-blacklist" .texts) := by
    rcases hspec with rfl | rfl <;> rfl
  have hdefault : ∀ field ∈ spec.incoming.fields, field.name = "facts-blacklist" → field.default.value.isNull = true := by
    rcases hspec with rfl | rfl <;> decide
  obtain ⟨value, hconvert, hvalue⟩ := exists_raw_of_resolveSection hcoherent h hg hl
  obtain ⟨parts, hparts, hsources⟩ := (convert_texts_iff rfl).mp hconvert
  rcases hvalue with hv | ⟨field, hf, hname, rfl, hn⟩
  · cases Value.ofTexts_inj hsources
    exact ⟨_, hv, .pattern hparts hm hc⟩
  · rw [hdefault field hf hname] at hn
    cases hn

/-- A profile that has been fixed up is refused, or one of its settings stops the checks. -/
theorem validate_eq_error (hfix : (fixUp name settings).result = .ok profile) {other : Option String}
    (h : validate profile other = .error fault) : fault.Ordinary ∨ ∃ setting ∈ settings, Stops setting fault := by
  have hf := fixedUp_of_fixUp hfix
  obtain ⟨converted, hr, ⟨hreports, hlist⟩, hevents⟩ := get?_of_fixUp hfix
  obtain ⟨_, hve⟩ := Settings.has_iff_get?.mp hf.retained
  obtain ⟨_, hvr⟩ := Settings.has_iff_get?.mp (has_reportTtl hf.sound)
  obtain ⟨events, rfl⟩ := exists_period_of_get? hf.sound rfl rfl hve
  obtain ⟨reports, rfl⟩ := exists_period_of_get? hf.sound rfl rfl hvr
  rw [validate] at h
  obtain h | ⟨_, _, h⟩ := Except.bind_eq_error_iff.mp h
  · exact .inl (checkSubname_eq_error h)
  obtain h | ⟨_, _, h⟩ := Except.bind_eq_error_iff.mp h
  · obtain hordinary | ⟨p, e, hp, he, rfl⟩ := checkRetention_eq_error hve hvr h
    · exact .inl hordinary
    have hperiod : ∃ key, (key = "report-ttl" ∨ key = "resource-events-ttl") ∧ converted.get? key = some (.period p) := by
      rcases hp with rfl | rfl
      · rcases hevents with hevents | hevents
        · exact ⟨_, .inr rfl, hevents ▸ hve⟩
        · exact ⟨_, .inl rfl, hevents ▸ hve⟩
      · exact ⟨_, .inl rfl, hreports ▸ hvr⟩
    obtain ⟨key, hk, hget⟩ := hperiod
    exact .inr (exists_stops_of_period hk hr hget he)
  obtain h | ⟨_, _, h⟩ := Except.bind_eq_error_iff.mp h
  · have htexts : ∀ v, profile.get? "facts-blacklist" = some v → ∃ sources, v = Value.ofTexts sources :=
      fun v hv => exists_texts_of_settled (hf.sound.settled_of_get? rfl hv) rfl
    obtain hordinary | ⟨sources, hsources, source, hm, hc⟩ := blacklist_eq_error htexts h
    · exact .inl hordinary
    · exact .inr (exists_stops_of_pattern (.inl rfl) hr (hlist ▸ hsources) hm hc)
  · cases h

theorem readProfileOf_eq_error (h : (readProfileOf settings).result = .error fault) :
    fault.Ordinary ∨ ∃ setting ∈ settings, Stops setting fault := by
  rw [readProfileOf] at h
  obtain h | ⟨profile, hr, h⟩ := Logged.result_bind_eq_error_iff.mp h
  · obtain hordinary | ⟨e, he, hb⟩ := resolveSection_fixed_eq_error (by simp) h
    · exact .inl hordinary
    · exact .inr ⟨e, he, .of_breaks_database hb⟩
  obtain h | ⟨_, _, h⟩ := Logged.result_bind_eq_error_iff.mp h
  · exact .inl (checkSubname_eq_error h)
  obtain h | ⟨_, _, h⟩ := Logged.result_bind_eq_error_iff.mp h
  · have hs := sound_of_resolveSection coherent_database hr
    have htexts : ∀ v, profile.get? "facts-blacklist" = some v → ∃ sources, v = Value.ofTexts sources :=
      fun v hv => exists_texts_of_settled (hs.settled_of_get? rfl hv) rfl
    obtain hordinary | ⟨sources, hsources, source, hm, hc⟩ := blacklist_eq_error htexts h
    · exact .inl hordinary
    · exact .inr (exists_stops_of_pattern (.inr rfl) hr hsources hm hc)
  · cases h

theorem readProfile_eq_error {given : Value} {primary : Settings}
    (h : (readProfile given (.map primary)).result = .error fault) :
    fault.Ordinary ∨ ∃ settings, given = .map settings ∧ ∃ setting ∈ settings, Stops setting fault := by
  cases given with
  | null => exact .inl (validateOutgoing_eq_error h)
  | map settings =>
    obtain hordinary | hstops := readProfileOf_eq_error h
    · exact .inl hordinary
    · exact .inr ⟨settings, rfl, hstops⟩
  | _ =>
    cases h
    exact .inl ⟨_, rfl, nofun⟩

/-! ## Documents -/

theorem Stops.isReported {setting : Value × Value} (h : Stops setting fault) : fault.isReported = false := by
  cases h with
  | converting h => exact h.isReported
  | retention _ _ _ _ => rfl
  | pattern _ _ hc =>
    rw [compilePattern] at hc
    split at hc <;> cases hc <;> rfl

/-- The stages of resolution with the settings that each of them looks at. -/
theorem resolve_eq_error {document : Document} (h : (resolve document).result = .error fault) :
    Section.coalesce isHeadingValue document = .error fault ∨
    ∃ tree, Section.coalesce isHeadingValue document = .ok tree ∧
      ((∃ before a after, attempts (tree.node "database") = before ++ a :: after ∧
          (∀ b ∈ before, ∃ profile, (fixUp b.1 b.2).result = .ok profile) ∧ (fixUp a.1 a.2).result = .error fault) ∨
        fault.Ordinary ∨
        ∃ settings, ((∃ a ∈ attempts (tree.node "database"), a.2 = settings) ∨
            plainAt tree "read-database" = .map settings) ∧ ∃ setting ∈ settings, Stops setting fault) := by
  rw [resolve] at h
  obtain h | ⟨tree, htree, h⟩ := Logged.result_bind_eq_error_iff.mp h
  · exact .inl h
  refine .inr ⟨tree, htree, ?_⟩
  obtain h | ⟨_, _, h⟩ := Logged.result_bind_eq_error_iff.mp h
  · cases h
  obtain h | ⟨profiles, hprofiles, h⟩ := Logged.result_bind_eq_error_iff.mp h
  · exact .inl (resolve_cascade_eq_error_iff.mp h)
  obtain h | ⟨_, _, h⟩ := Logged.result_bind_eq_error_iff.mp h
  · have hvalidate := (Logged.result_forIn (fun e : Option String × Settings => validate e.2 e.1) profiles.toList).symm.trans h
    obtain ⟨before, e, after, hlist, _, hv⟩ := Except.mapM_eq_error_iff.mp (Except.map_eq_error_iff.mp hvalidate)
    obtain ⟨_, hf⟩ := Section.forall₂_of_resolve hprofiles
    obtain ⟨d, hd, _, hfix⟩ := hf.exists_of_mem_right (show e ∈ profiles.toList by simp [hlist])
    obtain hordinary | hstops := validate_eq_error hfix hv
    · exact .inr (.inl hordinary)
    · exact .inr (.inr ⟨d.2, .inl ⟨d, mem_attempts_of_mem_profiles hd, rfl⟩, hstops⟩)
  obtain h | ⟨_, _, h⟩ := Logged.result_bind_eq_error_iff.mp h
  · obtain hordinary | ⟨settings, hgiven, hstops⟩ := readProfile_eq_error h
    · exact .inr (.inl hordinary)
    · exact .inr (.inr ⟨settings, .inr hgiven, hstops⟩)
  · cases h

/-- An empty user without a user name is met: grouping and what is tried before succeed, and so does the section itself. -/
def MeetsEmptyUser (document : Document) : Prop :=
  ∃ tree before a after, Section.coalesce isHeadingValue document = .ok tree ∧
    attempts (tree.node "database") = before ++ a :: after ∧
    (∀ b ∈ before, ∃ profile, (fixUp b.1 b.2).result = .ok profile) ∧
    (∃ converted, (resolveSection writeDatabase a.2 (label a.1)).result = .ok converted) ∧ EmptyUser a.2

/-- Nothing but an empty user without a user name brings resolution to an error of its own. -/
theorem resolve_internal_iff {document : Document} :
    (∃ e, (resolve document).result = .error (.config e) ∧ e.kind = .invariant) ↔ MeetsEmptyUser document := by
  constructor
  · rintro ⟨e, h, hk⟩
    obtain h | ⟨tree, htree, ⟨before, a, after, hattempts, hbefore, h⟩ | h | ⟨_, _, setting, _, h⟩⟩ := resolve_eq_error h
    · obtain h | ⟨h, _⟩ := Section.coalesce_eq_error h
      · exact absurd hk h.kind_ne
      · cases h
    · obtain h | ⟨hconverted, huser, _⟩ := fixUp_eq_error_iff.mp h
      · obtain h | ⟨setting, _, h⟩ := resolveSection_fixed_eq_error (by simp) h
        · exact absurd hk h.kind_ne
        · exact absurd rfl (Fault.ne_config h.isReported e)
      · exact ⟨tree, before, a, after, htree, hattempts, hbefore, hconverted, huser⟩
    · exact absurd hk h.kind_ne
    · exact absurd rfl (Fault.ne_config h.isReported e)
  · rintro ⟨tree, before, a, after, htree, hattempts, hbefore, hconverted, huser⟩
    refine ⟨missingUser, ?_, rfl⟩
    have hfix : (fixUp a.1 a.2).result = .error (.config missingUser) :=
      fixUp_eq_error_iff.mpr (.inr ⟨hconverted, huser, rfl⟩)
    have hprofiles := resolve_cascade_eq_error_iff.mpr ⟨before, a, after, hattempts, hbefore, hfix⟩
    rw [resolve]
    refine Logged.result_bind_eq_error_iff.mpr (.inr ⟨tree, htree, ?_⟩)
    refine Logged.result_bind_eq_error_iff.mpr (.inr ⟨(), rfl, ?_⟩)
    exact Logged.result_bind_eq_error_iff.mpr (.inl hprofiles)

theorem Stops.exists_text {setting : Value × Value} (h : Stops setting fault) : ∃ name, setting.1 = .text name := by
  cases h with
  | converting h => cases h <;> exact ⟨_, rfl⟩
  | _ => exact ⟨_, rfl⟩

def Written (document : Document) (settings : Settings) : Prop :=
  ∀ name value, (.text name, value) ∈ settings →
    ∃ key entries, isHeading key = true ∧ (.text key, .map entries) ∈ document ∧ (.text name, value) ∈ entries

/-- A setting that stops resolution is written in a section of the document. -/
theorem exists_written_of_resolve {document : Document} (htext : Settings.TextKeys document)
    (h : (resolve document).result = .error fault) : (∃ e, fault = .config e) ∨
      ∃ key entries, (isHeading key = true ∨ key = "read-database") ∧ (.text key, .map entries) ∈ document ∧
        ∃ setting ∈ entries, Stops setting fault := by
  have hconfig : fault.Ordinary → ∃ e, fault = .config e := fun ⟨e, he, _⟩ => ⟨e, he⟩
  obtain h | ⟨tree, htree, h⟩ := resolve_eq_error h
  · obtain h | ⟨_, h⟩ := Section.coalesce_eq_error h
    · exact .inl (hconfig h)
    · exact absurd htext h
  obtain ⟨htraced, _, hplain⟩ := @of_coalesce (Written document) _ tree htext nofun
    (fun key entries hk hm name value hv => ⟨key, entries, hk, hm, hv⟩) htree
  have hattempts : ∀ a ∈ attempts (tree.node "database"), Written document a.2 := by
    intro a ha
    rcases List.mem_cons.mp ha with rfl | ha
    · exact htraced.own
    · obtain ⟨p, hp, rfl⟩ := List.mem_map.mp ha
      intro name value hv
      exact (Settings.mem_overlay hv).elim (htraced.own name value) ((htraced.subs p hp).2 name value)
  have hwritten : ∀ a ∈ attempts (tree.node "database"), (∃ setting ∈ a.2, Stops setting fault) →
      ∃ key entries, (isHeading key = true ∨ key = "read-database") ∧ (.text key, .map entries) ∈ document ∧
        ∃ setting ∈ entries, Stops setting fault := by
    rintro a ha ⟨⟨k, value⟩, hm, hs⟩
    obtain ⟨name, rfl⟩ := hs.exists_text
    obtain ⟨key, entries, hk, hd, he⟩ := hattempts a ha name value hm
    exact ⟨key, entries, .inl hk, hd, _, he, hs⟩
  obtain ⟨before, a, after, hlist, _, h⟩ | h | ⟨settings, hsettings, hs⟩ := h
  · obtain h | ⟨_, _, rfl⟩ := fixUp_eq_error_iff.mp h
    · obtain h | ⟨setting, hm, hb⟩ := resolveSection_fixed_eq_error (by simp) h
      · exact .inl (hconfig h)
      · exact .inr (hwritten a (by simp [hlist]) ⟨setting, hm, .converting hb⟩)
    · exact .inl ⟨_, rfl⟩
  · exact .inl (hconfig h)
  · obtain ⟨a, ha, rfl⟩ | hgiven := hsettings
    · exact .inr (hwritten a ha hs)
    · rcases hplain "read-database" with hp | hp <;> rw [hgiven] at hp
      · cases hp
      · exact .inr ⟨_, _, .inr rfl, hp, hs⟩

end

end Database

end Stanza
