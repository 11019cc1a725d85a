import Stanza.Proofs.Config.Resolution
import Stanza.Proofs.Database.Failure

/-! # Documents that cannot be resolved

Resolution ends with an error of the document unless a setting exceeds what can be computed with: a number that is too
long to be quoted, a span or a period that is too long, or a pattern that repeats too often. An error of resolution
itself is met by an empty user only.
-/
namespace Stanza.Config

variable {document : Document} {fault : Fault}

/-! ## Single sections -/

theorem index_eq_error {e : ConfigError} (h : index document = .error e) : e.kind = .layout := by
  obtain ⟨⟨key, value⟩, _, sections, h⟩ := Except.exists_of_foldlM_eq_error h
  cases key with
  | text name =>
    dsimp only at h
    split at h <;> cases h
    rfl
  | _ =>
    cases h
    rfl

/-- Every section by name is one of the document. -/
theorem mem_of_index {sections : Settings} (h : index document = .ok sections) : ∀ e ∈ sections, e ∈ document := by
  induction document using List.reverseRecOn generalizing sections with
  | nil =>
    cases h
    exact List.forall_mem_nil _
  | append_singleton document e ih =>
    obtain ⟨before, name, hb, he, _, rfl⟩ := index_append_eq_ok_iff.mp h
    intro f hf
    rcases Settings.mem_of_mem_set hf with hf | rfl
    · exact List.mem_append_left _ (ih hb f hf)
    · exact List.mem_append_right _ (List.mem_singleton.mpr (Prod.ext he.symm rfl))

theorem ordinary_of_settingsOf {heading : String} {contents : Value}
    (h : (settingsOf heading contents).mapError Fault.config = .error fault) : fault.Ordinary := by
  cases contents <;> cases h <;> exact ⟨_, rfl, nofun⟩

theorem settingsOf_eq_ok {heading : String} {contents : Value} {settings : Settings}
    (h : settingsOf heading contents = .ok settings) : settings = [] ∨ contents = .map settings := by
  cases contents <;> cases h
  · exact .inl rfl
  · exact .inr rfl

theorem productName_eq_error {name : Value} (h : productName name = .error fault) : fault.Ordinary ∨
    name.isText = false ∧ ∃ e, name.literal = .error e ∧ fault = .rejected (.digitLimit e) := by
  unfold productName at h
  split at h
  · dsimp only at h
    split at h <;> cases h
    exact .inl ⟨_, rfl, fun h => by cases h⟩
  · next hne =>
    obtain h | ⟨_, _, h⟩ := Except.bind_eq_error_iff.mp h
    · obtain ⟨e, hl, rfl⟩ := digits_eq_error_iff.mp h
      refine .inr ⟨?_, e, hl, rfl⟩
      cases name with
      | text s => exact absurd rfl (hne s)
      | _ => rfl
    · cases h
      exact .inl ⟨_, rfl, fun h => by cases h⟩

/-- A name that is not there is a text. -/
theorem mem_of_get_defaultTo {settings : Settings} {name s : String}
    (h : ((defaultTo settings name (.text s)).get name).isText = false) :
    (.text name, (defaultTo settings name (.text s)).get name) ∈ settings := by
  rw [defaultTo] at *
  split
  · next hn =>
    rw [if_pos hn, Settings.get, Settings.get?_set_self] at h
    cases h
  · next hn => exact Settings.mem_of_get? (Settings.get?_of_get (by simpa using hn))

/-- A product name that is no text is quoted, so it has been written. -/
theorem globalsOf_eq_error {contents : Value} (h : globalsOf contents = .error fault) : fault.Ordinary ∨
    ∃ settings value e, contents = .map settings ∧ (.text "product-name", value) ∈ settings ∧ value.isText = false ∧
      value.literal = .error e ∧ fault = .rejected (.digitLimit e) := by
  rw [globalsOf] at h
  obtain h | ⟨settings, hs, h⟩ := Except.bind_eq_error_iff.mp h
  · exact .inl (ordinary_of_settingsOf h)
  obtain h | ⟨_, _, h⟩ := Except.bind_eq_error_iff.mp h
  · obtain h | ⟨ht, e, hl, rfl⟩ := productName_eq_error h
    · exact .inl h
    have hm := mem_of_get_defaultTo ht
    obtain rfl | hcontents := settingsOf_eq_ok (Except.mapError_eq_ok_iff.mp hs)
    · cases hm
    · exact .inr ⟨settings, _, e, hcontents, hm, ht, hl, rfl⟩
  · cases h

theorem resolveSection_eq_error {spec : Schema.SectionSpec} {heading : String} {contents : Value}
    (h : (resolveSection spec heading contents).result = .error fault) : fault.Ordinary ∨
    ∃ settings, (settings = [] ∨ contents = .map settings) ∧ (Schema.resolveSection spec settings heading).result = .error fault := by
  rw [resolveSection] at h
  obtain h | ⟨settings, hs, h⟩ := Logged.result_bind_eq_error_iff.mp h
  · exact .inl (ordinary_of_settingsOf h)
  · exact .inr ⟨settings, settingsOf_eq_ok (Except.mapError_eq_ok_iff.mp hs), h⟩

/-- What is looked up among the sections is written in the document. -/
theorem mem_of_get_index {sections settings : Settings} {heading : String} (hi : index document = .ok sections)
    (h : sections.get heading = .map settings) : (.text heading, .map settings) ∈ document := by
  have hget : sections.get? heading = some (sections.get heading) := Settings.get?_of_get (by rw [h]; rfl)
  exact mem_of_index hi _ (Settings.mem_of_get? (h ▸ hget))

/-! ## Documents -/

section

variable [Pattern.Compiler] {host : Host}

/-- What in a document or in the host exceeds what can be computed with, and the fault that it leads to. -/
inductive Exceeds (document : Document) (host : Host) : Fault → Prop
  | database {key : String} {entries : Settings} {setting : Value × Value} {fault : Fault}
    (hk : Database.isHeading key = true ∨ key = "read-database") (hd : (.text key, .map entries) ∈ document)
    (hm : setting ∈ entries) (h : Database.Stops setting fault) : Exceeds document host fault
  | setting {key : String} {spec : Schema.SectionSpec} {entries : Settings} {setting : Value × Value} {fault : Fault}
    (hs : (key, spec) ∈ [("developer", Schema.developer), ("command-processing", Schema.commandProcessing host),
      ("puppetdb", Schema.puppetdb)]) (hd : (.text key, .map entries) ∈ document) (hm : setting ∈ entries)
    (h : Schema.Breaks spec.outgoing setting fault) : Exceeds document host fault
  | product {entries : Settings} {value : Value} {e : Text.DigitLimitError} (hd : (.text "global", .map entries) ∈ document)
    (hm : (.text "product-name", value) ∈ entries) (ht : value.isText = false) (hl : value.literal = .error e) :
    Exceeds document host (.rejected (.digitLimit e))
  | host (h : host.Unwritable) : Exceeds document host (.rejected (.digitLimit .writing))

/-- The stages of resolution. -/
theorem ofDocument_eq_error_iff : (ofDocument document host).result = .error fault ↔
    (index document).mapError Fault.config = .error fault ∨ ∃ sections, index document = .ok sections ∧
      (globalsOf (sections.get "global") = .error fault ∨ ∃ globals, globalsOf (sections.get "global") = .ok globals ∧
        ((resolveSection Schema.developer "developer" (sections.get "developer")).result = .error fault ∨
          ∃ developer, (resolveSection Schema.developer "developer" (sections.get "developer")).result = .ok developer ∧
            ((Database.resolve document).result = .error fault ∨
              ∃ databases, (Database.resolve document).result = .ok databases ∧
                ((resolveSection (Schema.commandProcessing host) "command-processing"
                    (sections.get "command-processing")).result = .error fault ∨
                  ∃ commandProcessing, (resolveSection (Schema.commandProcessing host) "command-processing"
                    (sections.get "command-processing")).result = .ok commandProcessing ∧
                    (resolveSection Schema.puppetdb "puppetdb" (sections.get "puppetdb")).result = .error fault)))) := by
  simp only [ofDocument, Logged.result_bind_eq_error_iff, Logged.result_lift, Logged.result_pure, Except.mapError_eq_ok_iff,
    reduceCtorEq, and_false, exists_false, or_false]

theorem Exceeds.isReported (h : Exceeds document host fault) : fault.isReported = false := by
  cases h with
  | database _ _ _ h => exact h.isReported
  | setting _ _ _ h => exact h.isReported
  | product _ _ _ _ | host _ => rfl

theorem Exceeds.ne_config (h : Exceeds document host fault) (e : ConfigError) : fault ≠ .config e :=
  Fault.ne_config h.isReported e

theorem exceeds_of_resolveSection {sections : Settings} (hi : index document = .ok sections) {key : String}
    {spec : Schema.SectionSpec} (hs : (key, spec) ∈ [("developer", Schema.developer),
      ("command-processing", Schema.commandProcessing host), ("puppetdb", Schema.puppetdb)])
    (h : (resolveSection spec key (sections.get key)).result = .error fault) :
    fault.Ordinary ∨ Exceeds document host fault := by
  obtain h | ⟨settings, hsettings, h⟩ := resolveSection_eq_error h
  · exact .inl h
  have hwritten : (∃ setting ∈ settings, Schema.Breaks spec.outgoing setting fault) → Exceeds document host fault := by
    rintro ⟨setting, hm, hb⟩
    rcases hsettings with rfl | hcontents
    · cases hm
    · exact .setting hs (mem_of_get_index hi hcontents) hm hb
  have hall := hs
  simp only [List.mem_cons, List.not_mem_nil, or_false, Prod.mk.injEq] at hall
  rcases hall with ⟨rfl, rfl⟩ | ⟨rfl, rfl⟩ | ⟨rfl, rfl⟩
  · exact (Schema.resolveSection_fixed_eq_error (by simp) h).imp_right hwritten
  · rcases Schema.resolveSection_commandProcessing_eq_error h with h | h | ⟨hhost, rfl⟩
    · exact .inl h
    · exact .inr (hwritten h)
    · exact .inr (.host hhost)
  · exact (Schema.resolveSection_fixed_eq_error (by simp) h).imp_right hwritten

/-- A document that cannot be resolved is refused with an error of the document, or something exceeds what can be
computed with. -/
theorem config_or_exceeds (h : (ofDocument document host).result = .error fault) :
    (∃ e, fault = .config e) ∨ Exceeds document host fault := by
  have hordinary : fault.Ordinary ∨ Exceeds document host fault → (∃ e, fault = .config e) ∨ Exceeds document host fault :=
    fun h => h.imp_left fun ⟨e, he, _⟩ => ⟨e, he⟩
  obtain h | ⟨sections, hi, h⟩ := ofDocument_eq_error_iff.mp h
  · obtain ⟨e, _, rfl⟩ := Except.mapError_eq_error_iff.mp h
    exact .inl ⟨e, rfl⟩
  obtain h | ⟨_, _, h⟩ := h
  · obtain h | ⟨settings, value, e, hcontents, hm, ht, hl, rfl⟩ := globalsOf_eq_error h
    · exact hordinary (.inl h)
    · exact .inr (.product (mem_of_get_index hi hcontents) hm ht hl)
  obtain h | ⟨_, _, h⟩ := h
  · exact hordinary (exceeds_of_resolveSection hi (by simp) h)
  obtain h | ⟨_, _, h⟩ := h
  · obtain h | ⟨key, entries, hk, hd, setting, hm, hs⟩ := Database.exists_written_of_resolve (index_eq_ok hi).1 h
    · exact .inl h
    · exact .inr (.database hk hd hm hs)
  obtain h | ⟨_, _, h⟩ := h
  · exact hordinary (exceeds_of_resolveSection hi (by simp) h)
  · exact hordinary (exceeds_of_resolveSection hi (by simp) h)

/-- A document that cannot be resolved is refused with an error of the document exactly if nothing in it, nor the memory
of the host, exceeds what can be computed with. -/
theorem config_iff_not_exceeds (h : (ofDocument document host).result = .error fault) :
    (∃ e, fault = .config e) ↔ ¬ Exceeds document host fault := by
  refine ⟨fun ⟨e, he⟩ hexceeds => hexceeds.ne_config e he, fun hnot => ?_⟩
  exact (config_or_exceeds h).resolve_right hnot

end

/-- No connection lives for nearly four million years. -/
theorem ofDocument_aged : ∃ fault,
    (ofDocument [(.text "database", .map [(.text "subname", .text "//localhost/db"),
      (.text "conn-max-age", .text "2000000000000")])] ⟨4, 205000⟩).result = .error fault ∧ ¬ ∃ e, fault = .config e := by
  have hfails : (ofDocument [(.text "database", .map [(.text "subname", .text "//localhost/db"),
      (.text "conn-max-age", .text "2000000000000")])] ⟨4, 205000⟩).result.failsWith (!·.isConfig) = true := by
    decide +kernel
  obtain ⟨fault, h, hp⟩ := Except.failsWith_iff.mp hfails
  refine ⟨fault, h, ?_⟩
  rintro ⟨e, rfl⟩
  cases hp

/-- Nor are reports kept for so long. -/
theorem exceeds_retained : ∃ fault,
    (ofDocument [(.text "database", .map [(.text "subname", .text "//localhost/db"),
      (.text "report-ttl", .text "999999999999d")])] ⟨4, 205000⟩).result = .error fault ∧
    Exceeds [(.text "database", .map [(.text "subname", .text "//localhost/db"),
      (.text "report-ttl", .text "999999999999d")])] ⟨4, 205000⟩ fault := by
  have hfails : (ofDocument [(.text "database", .map [(.text "subname", .text "//localhost/db"),
      (.text "report-ttl", .text "999999999999d")])] ⟨4, 205000⟩).result.failsWith (!·.isConfig) = true := by
    decide +kernel
  obtain ⟨fault, h, hp⟩ := Except.failsWith_iff.mp hfails
  refine ⟨fault, h, ?_⟩
  by_contra hn
  obtain ⟨e, rfl⟩ := (config_iff_not_exceeds h).mpr hn
  cases hp

section

variable [Pattern.Compiler]

/-- An error of resolution itself is met by an empty user only, once the sections before have been resolved. Keys
without a subsection are always read as themselves. -/
theorem internal_iff_emptyUser :
    (∀ key header, Header.parse ("[" ++ key ++ "]") = .ok header → header.subsection = none → header.name = key) ∧
    (∀ document, (∃ e, (Database.resolve document).result = .error (.config e) ∧ e.kind = .invariant) ↔
      Database.MeetsEmptyUser document) ∧
    ∀ document host, (∃ e, (ofDocument document host).result = .error (.config e) ∧ e.kind = .invariant) ↔
      (∃ sections globals developer, index document = .ok sections ∧ globalsOf (sections.get "global") = .ok globals ∧
        (resolveSection Schema.developer "developer" (sections.get "developer")).result = .ok developer) ∧
      Database.MeetsEmptyUser document := by
  refine ⟨fun key header hp hs => Header.name_eq_of_parse hp hs, fun document => Database.resolve_internal_iff, ?_⟩
  intro document host
  constructor
  · rintro ⟨e, h, hk⟩
    have hsection : ∀ {key : String} {spec : Schema.SectionSpec} {sections : Settings}, index document = .ok sections →
        (key, spec) ∈ [("developer", Schema.developer), ("command-processing", Schema.commandProcessing host),
          ("puppetdb", Schema.puppetdb)] →
        (resolveSection spec key (sections.get key)).result ≠ .error (.config e) := by
      intro key spec sections hi hs h
      obtain h | h := exceeds_of_resolveSection hi hs h
      · exact h.kind_ne hk
      · exact h.ne_config e rfl
    obtain h | ⟨sections, hi, h⟩ := ofDocument_eq_error_iff.mp h
    · obtain ⟨d, hd, he⟩ := Except.mapError_eq_error_iff.mp h
      cases he
      rw [index_eq_error hd] at hk
      cases hk
    obtain h | ⟨globals, hg, h⟩ := h
    · obtain h | ⟨_, _, _, _, _, _, _, h⟩ := globalsOf_eq_error h
      · exact absurd hk h.kind_ne
      · cases h
    obtain h | ⟨developer, hd, h⟩ := h
    · exact absurd h (hsection hi (by simp))
    obtain h | ⟨_, _, h⟩ := h
    · exact ⟨⟨sections, globals, developer, hi, hg, hd⟩, Database.resolve_internal_iff.mp ⟨e, h, hk⟩⟩
    obtain h | ⟨_, _, h⟩ := h
    · exact absurd h (hsection hi (by simp))
    · exact absurd h (hsection hi (by simp))
  · rintro ⟨⟨sections, globals, developer, hi, hg, hd⟩, huser⟩
    obtain ⟨e, he, hk⟩ := Database.resolve_internal_iff.mpr huser
    exact ⟨e, ofDocument_eq_error_iff.mpr (.inr ⟨sections, hi, .inr ⟨globals, hg, .inr ⟨developer, hd, .inl he⟩⟩⟩), hk⟩

end

/-- A user is written as an empty text. -/
theorem internal_empty_user :
    (∃ e, (Database.resolve [(.text "database", .map [(.text "subname", .text "//localhost/db"),
      (.text "user", .text "")])]).result = .error (.config e) ∧ e.kind = .invariant) ∧
    ∃ e, (ofDocument [(.text "database", .map [(.text "subname", .text "//localhost/db"),
      (.text "user", .text "")])] ⟨4, 205000⟩).result = .error (.config e) ∧ e.kind = .invariant := by
  have hresolve : (Database.resolve [(.text "database", .map [(.text "subname", .text "//localhost/db"),
      (.text "user", .text "")])]).result.failsWith Fault.isInternal = true := by
    decide +kernel
  have hdocument : (ofDocument [(.text "database", .map [(.text "subname", .text "//localhost/db"),
      (.text "user", .text "")])] ⟨4, 205000⟩).result.failsWith Fault.isInternal = true := by
    decide +kernel
  exact ⟨Fault.exists_internal hresolve, Fault.exists_internal hdocument⟩

end Stanza.Config
