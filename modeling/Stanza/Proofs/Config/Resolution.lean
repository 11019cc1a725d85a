import Stanza.Config.Resolution
import Stanza.Proofs.Config.Frozen
import Stanza.Proofs.Section.Gathered

/-! # When documents are resolved

The sections of a document by name are the document itself if no name stands twice. Global settings that have been
completed are complete.
-/
namespace Stanza.Config

/-! ## Sections by name -/

theorem index_append_eq_ok_iff {document : Document} {e : Value × Value} {sections : Settings} :
    index (document ++ [e]) = .ok sections ↔ ∃ before name, index document = .ok before ∧ e.1 = .text name ∧
      (before.has name = true → Database.isHeading name = true) ∧ before.set name e.2 = sections := by
  rcases e with ⟨key, value⟩
  rw [index, List.foldlM_concat, Except.bind_eq_ok_iff]
  refine exists_congr fun before => ?_
  cases key with
  | text name =>
    have hstep : ∀ out, (if before.has name && !Database.isHeading name then throw (.repeatedSection name)
        else return before.set name value : Except ConfigError Settings) = .ok out ↔
        (before.has name = true → Database.isHeading name = true) ∧ before.set name value = out := by
      intro out
      cases before.has name <;> cases Database.isHeading name <;> simp [pure, Except.pure]
    simp only [hstep, Value.text.injEq, exists_eq_left', exists_and_left]
    rfl
  | _ => simp

theorem textKeys_append {document : Document} {e : Value × Value} {name : String} (he : e.1 = .text name) :
    Settings.TextKeys (document ++ [e]) ↔ Settings.TextKeys document := by
  simp [Settings.TextKeys, Settings.keys, he, or_imp, forall_and]

/-- An index has a key for every section, each a text. -/
theorem index_eq_ok {document : Document} {sections : Settings} (h : index document = .ok sections) :
    Settings.TextKeys document ∧ (Database.HeadingsOnce document → sections = document ∧ (Settings.keys document).Nodup) := by
  induction document using List.reverseRecOn generalizing sections with
  | nil =>
    cases h
    exact ⟨fun _ hk => absurd hk List.not_mem_nil, fun _ => ⟨rfl, List.nodup_nil⟩⟩
  | append_singleton document e ih =>
    obtain ⟨before, name, hb, he, hn, rfl⟩ := index_append_eq_ok_iff.mp h
    obtain ⟨htext, hall⟩ := ih hb
    refine ⟨(textKeys_append he).mpr htext, fun honce => ?_⟩
    -- only a heading can replace an earlier section, and no heading stands twice
    obtain ⟨hprev, -, hlast⟩ := List.pairwise_append.mp honce
    obtain ⟨rfl, hnodup⟩ := hall hprev
    have hnew : Settings.has before name = false := by
      rw [Bool.eq_false_iff]
      intro hh
      obtain ⟨f, hf, hfk⟩ := List.mem_map.mp (Settings.has_iff_mem_keys.mp hh)
      exact hlast f hf e (List.mem_singleton_self e) name (hn hh) hfk he
    have hentry : (Value.text name, e.2) = e := Prod.ext he.symm rfl
    refine ⟨by rw [Settings.set_of_not_has hnew, hentry], ?_⟩
    have := Settings.nodup_keys_set hnodup name e.2
    rwa [Settings.set_of_not_has hnew, hentry] at this

/-- A document that repeats no name is its own index. -/
theorem index_of_nodup {document : Document} (ht : Settings.TextKeys document) (hn : (Settings.keys document).Nodup) :
    index document = .ok document := by
  induction document using List.reverseRecOn with
  | nil => rfl
  | append_singleton document e ih =>
    obtain ⟨name, he⟩ := ht e.1 (by simp [Settings.keys])
    rw [Settings.keys, List.map_append] at hn
    obtain ⟨hn, -, hnew⟩ := List.nodup_append'.mp hn
    have hfresh : Settings.has document name = false := by
      rw [Bool.eq_false_iff]
      intro hh
      exact hnew (Settings.has_iff_mem_keys.mp hh) (by simp [he])
    refine index_append_eq_ok_iff.mpr ⟨document, name, ih ((textKeys_append he).mp ht) hn, he, ?_, ?_⟩
    · simp [hfresh]
    · rw [Settings.set_of_not_has hfresh, ← he]

/-- An ordinary section of the index is the one of the document. -/
theorem mem_index_iff {document : Document} {sections : Settings} (h : index document = .ok sections) {name : String}
    (hn : Database.isHeading name = false) {v : Value} : sections.get? name = some v ↔ (.text name, v) ∈ document := by
  induction document using List.reverseRecOn generalizing sections with
  | nil =>
    cases h
    simp
  | append_singleton document e ih =>
    obtain ⟨before, other, hb, he, hhead, rfl⟩ := index_append_eq_ok_iff.mp h
    have hlast : (Value.text name, v) = e ↔ other = name ∧ e.2 = v := by
      rw [Prod.ext_iff, he, Value.text.injEq, eq_comm, @eq_comm _ v]
    rw [Settings.get?_set, List.mem_append, List.mem_singleton, hlast, ← ih hb]
    by_cases ho : other = name
    · subst ho
      have hfresh : before.get? other = none := by
        rw [← Option.not_isSome_iff_eq_none, ← Settings.has_eq_isSome]
        intro hh
        rw [hhead hh] at hn
        cases hn
      simp [hfresh]
    · simp [ho]

theorem index_of_regular {parts : List Database.Part} (h : Database.Regular parts) :
    index (parts.map Database.Part.entry) = .ok (parts.map Database.Part.entry) :=
  index_of_nodup (Database.textKeys_entries h) (Database.nodup_keys_entries h)

/-! ## Global settings -/

structure Complete (globals : Settings) : Prop where
  product : ∃ product ∈ products, globals.get? "product-name" = some (.text product)
  server : (globals.get "update-server").isNull = false

theorem productName_eq_ok {name : Value} {product : String} (h : productName name = .ok product) :
    product ∈ products := by
  unfold productName at h
  split at h
  · dsimp only at h
    split at h
    · next hc =>
      cases h
      simpa using hc
    · cases h
  · obtain ⟨_, _, h⟩ := Except.bind_eq_ok_iff.mp h
    cases h

theorem productName_of_mem : ∀ product ∈ products, productName (.text product) = .ok product := by
  simp only [products, List.forall_mem_cons, List.not_mem_nil, false_imp_iff, implies_true, and_true]
  exact ⟨rfl, rfl⟩

theorem has_defaultTo {settings : Settings} {name other : String} (value : Value) (h : name ≠ other) :
    (defaultTo settings name value).has other = settings.has other := by
  rw [defaultTo]
  split
  · rw [Settings.has_set, decide_eq_false h, Bool.false_or]
  · rfl

theorem get?_defaultTo_of_ne {settings : Settings} {name other : String} (value : Value) (h : name ≠ other) :
    (defaultTo settings name value).get? other = settings.get? other := by
  rw [defaultTo]
  split
  · rw [Settings.get?_set_of_ne _ h]
  · rfl

theorem isNull_get_defaultTo {settings : Settings} {name : String} {value : Value} (h : value.isNull = false) :
    ((defaultTo settings name value).get name).isNull = false := by
  rw [defaultTo]
  split
  · rwa [Settings.get, Settings.get?_set_self]
  · next hn => simpa using hn

theorem defaultTo_of_isNull {settings : Settings} {name : String} (h : (settings.get name).isNull = false) (value : Value) :
    defaultTo settings name value = settings := by
  rw [defaultTo, h]
  rfl

theorem globalsOf_eq_ok_iff {contents : Value} {globals : Settings} : globalsOf contents = .ok globals ↔
    ∃ settings, settingsOf "global" contents = .ok settings ∧ ∃ product,
      productName ((defaultTo settings "product-name" (.text "puppetdb")).get "product-name") = .ok product ∧
      defaultTo ((defaultTo settings "product-name" (.text "puppetdb")).set "product-name" (.text product))
        "update-server" (.text "https://updates.puppetlabs.com/check-for-updates") = globals := by
  simp only [globalsOf, Except.bind_eq_ok_iff, Except.mapError_eq_ok_iff, pure, Except.pure, Except.ok.injEq]

theorem complete_of_globalsOf {contents : Value} {globals : Settings} (h : globalsOf contents = .ok globals) :
    Complete globals := by
  obtain ⟨settings, _, product, hp, rfl⟩ := globalsOf_eq_ok_iff.mp h
  refine ⟨⟨product, productName_eq_ok hp, ?_⟩, isNull_get_defaultTo rfl⟩
  rw [get?_defaultTo_of_ne _ (by decide), Settings.get?_set_self]

/-- Whether a setting is there is not changed for the others. -/
theorem sets_of_globalsOf {contents : Value} {globals : Settings} (h : globalsOf contents = .ok globals) {name : String}
    (hp : "product-name" ≠ name) (hs : "update-server" ≠ name) : globals.has name = Retirement.sets contents name := by
  obtain ⟨settings, hset, product, _, rfl⟩ := globalsOf_eq_ok_iff.mp h
  rw [has_defaultTo _ hs, Settings.has_set, decide_eq_false hp, Bool.false_or, has_defaultTo _ hp]
  cases contents with
  | null | map _ => cases hset; rfl
  | _ => cases hset

theorem globalsOf_of_complete {globals : Settings} (h : Complete globals) : globalsOf (.map globals) = .ok globals := by
  obtain ⟨product, hp, hget⟩ := h.product
  have hname : globals.get "product-name" = .text product := Settings.get_of_get? hget
  have hdefault : defaultTo globals "product-name" (.text "puppetdb") = globals :=
    defaultTo_of_isNull (by rw [hname]; rfl) _
  refine globalsOf_eq_ok_iff.mpr ⟨globals, rfl, product, ?_, ?_⟩
  · rw [hdefault, hname, productName_of_mem product hp]
  · rw [hdefault, Settings.set_of_get? hget, defaultTo_of_isNull h.server]

theorem Complete.thaw_freeze {globals : Settings} (h : Complete globals) : Complete (thawEntries (freezeEntries globals)) := by
  obtain ⟨product, hp, hget⟩ := h.product
  refine ⟨⟨product, hp, ?_⟩, ?_⟩
  · rw [get?_thawEntries, get?_freezeEntries, hget]
    rfl
  · have hs := Settings.get?_of_get h.server
    rw [Settings.get, get?_thawEntries, get?_freezeEntries, hs]
    change ((globals.get "update-server").freeze.thaw).isNull = false
    rw [isNull_thaw, isNull_freeze, h.server]

/-! ## Configurations -/

theorem resolveSection_eq_ok_iff {spec : Schema.SectionSpec} {heading : String} {contents : Value} {out : Settings} :
    (resolveSection spec heading contents).result = .ok out ↔ ∃ settings, settingsOf heading contents = .ok settings ∧
      (Schema.resolveSection spec settings heading).result = .ok out := by
  simp only [resolveSection, Logged.result_bind_eq_ok_iff, Logged.result_lift, Except.mapError_eq_ok_iff]

section

variable [Pattern.Compiler] {document : Document} {host : Host}

structure Resolves (sections : Settings) (document : Document) (host : Host) (globals : Settings)
    (databases : Database.Resolution) (developer commandProcessing puppetdb : Settings) : Prop where
  globals : globalsOf (sections.get "global") = .ok globals
  databases : (Database.resolve document).result = .ok databases
  developer : (resolveSection Schema.developer "developer" (sections.get "developer")).result = .ok developer
  commandProcessing : (resolveSection (Schema.commandProcessing host) "command-processing"
    (sections.get "command-processing")).result = .ok commandProcessing
  puppetdb : (resolveSection Schema.puppetdb "puppetdb" (sections.get "puppetdb")).result = .ok puppetdb

def assemble (sections globals : Settings) (databases : Database.Resolution)
    (developer commandProcessing puppetdb : Settings) : Config where
  profiles := databases.profiles.map freezeEntries
  readProfile := freezeEntries databases.readProfile
  commandProcessing := freezeEntries commandProcessing
  puppetdb := freezeEntries puppetdb
  developer := freezeEntries developer
  globals := freezeEntries globals
  extra := freezeEntries (sections.filter isExtra)

/-- A document with a configuration is its own index. -/
theorem index_eq_self {sections : Settings} {r : Database.Resolution} (hi : index document = .ok sections)
    (hr : (Database.resolve document).result = .ok r) :
    Settings.TextKeys document ∧ sections = document ∧ (Settings.keys document).Nodup := by
  obtain ⟨htext, hindex⟩ := index_eq_ok hi
  obtain ⟨tree, htree, _⟩ := Database.resolve_eq_ok_iff.mp hr
  obtain ⟨_, honce, _⟩ := @Database.of_coalesce (fun _ => True) _ tree htext trivial (fun _ _ _ _ => trivial) htree
  exact ⟨htext, hindex honce⟩

theorem ofDocument_eq_ok_iff {c : Config} : (ofDocument document host).result = .ok c ↔
    ∃ sections globals databases developer commandProcessing puppetdb, index document = .ok sections ∧
      Resolves sections document host globals databases developer commandProcessing puppetdb ∧
      assemble sections globals databases developer commandProcessing puppetdb = c := by
  simp only [ofDocument, Logged.result_bind_eq_ok_iff, Logged.result_lift, Except.mapError_eq_ok_iff, Logged.result_pure,
    Except.ok.injEq]
  constructor
  · rintro ⟨sections, hi, globals, hg, developer, hd, databases, hdb, commandProcessing, hc, puppetdb, hp, rfl⟩
    exact ⟨sections, globals, databases, developer, commandProcessing, puppetdb, hi, ⟨hg, hdb, hd, hc, hp⟩, rfl⟩
  · rintro ⟨sections, globals, databases, developer, commandProcessing, puppetdb, hi, h, rfl⟩
    exact ⟨sections, hi, globals, h.globals, developer, h.developer, databases, h.databases, commandProcessing,
      h.commandProcessing, puppetdb, h.puppetdb, rfl⟩

/-- A document with a configuration repeats neither a name nor, in any spelling, a heading of a database. -/
theorem groupable_of_ofDocument {c : Config} (h : (ofDocument document host).result = .ok c) :
    Settings.TextKeys document ∧ (Settings.keys document).Nodup ∧ Section.Groupable Database.isHeading document := by
  obtain ⟨sections, _, databases, _, _, _, hi, hr, _⟩ := ofDocument_eq_ok_iff.mp h
  obtain ⟨ht, _, hn⟩ := index_eq_self hi hr.databases
  obtain ⟨tree, htree, _⟩ := Database.resolve_eq_ok_iff.mp hr.databases
  exact ⟨ht, hn, (Section.exists_coalesce_iff (fun _ => rfl) ht (Section.apart_isHeading document)).mp ⟨tree, htree⟩⟩

/-- Some name stands twice, or two headings of databases are the same header. -/
def Repeats (document : Document) : Prop :=
  ¬ (Settings.keys document).Nodup ∨ ¬ ((Section.readings Database.isHeading document).map Prod.fst).Nodup

end

end Stanza.Config

namespace Stanza.Outcome

theorem result_check (sections : Settings) : (Retirement.check sections).result = .ok
    { notices := Retirement.notices sections
      fatal := if Retirement.sets (sections.get "global") Retirement.urlPrefix.key then [Retirement.urlPrefix] else [] } :=
  rfl

variable [Pattern.Compiler] {document : Document} {host : Host}

/-- When a document has a configuration. -/
theorem ofDocument_eq_ok_iff {o : Outcome} {c : Config} :
    (ofDocument document host).result = .ok o ∧ o.config? = some c ↔
      ∃ sections, Config.index document = .ok sections ∧
        Retirement.sets (sections.get "global") Retirement.urlPrefix.key = false ∧
        (Config.ofDocument document host).result = .ok c ∧
        ⟨{ notices := Retirement.notices sections, fatal := [] }, some c⟩ = o := by
  simp only [ofDocument, Logged.result_bind_eq_ok_iff, Logged.result_lift, Except.mapError_eq_ok_iff, result_check,
    Except.ok.injEq, exists_eq_left']
  constructor
  · rintro ⟨⟨sections, hi, h⟩, hc⟩
    refine ⟨sections, hi, ?_⟩
    cases hs : Retirement.sets (sections.get "global") Retirement.urlPrefix.key with
    | true =>
      rw [hs] at h
      cases h
      cases hc
    | false =>
      rw [hs] at h
      obtain ⟨config, hconfig, h⟩ := Logged.result_bind_eq_ok_iff.mp h
      cases h
      cases hc
      exact ⟨rfl, hconfig, rfl⟩
  · rintro ⟨sections, hi, hs, hconfig, rfl⟩
    refine ⟨⟨sections, hi, ?_⟩, rfl⟩
    rw [hs]
    exact Logged.result_bind_eq_ok_iff.mpr ⟨c, hconfig, rfl⟩

theorem config?_of_repeats (h : Config.Repeats document) {o : Outcome}
    (ho : (ofDocument document host).result = .ok o) : o.config? = none := by
  cases hc : o.config? with
  | none => rfl
  | some c =>
    obtain ⟨_, _, _, hconfig, _⟩ := ofDocument_eq_ok_iff.mp ⟨ho, hc⟩
    obtain ⟨_, hn, hg⟩ := Config.groupable_of_ofDocument hconfig
    rcases h with h | h
    · exact absurd hn h
    · exact absurd hg.once h

end Stanza.Outcome
