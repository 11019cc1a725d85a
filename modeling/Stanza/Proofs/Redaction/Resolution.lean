import Stanza.Proofs.Redaction.Document

/-! # Resolution without secrets

A document with hidden secrets resolves like the document itself: with the same warnings, to the same fault or to the
same report and a configuration that differs in hidden secrets only.
-/
namespace Stanza.Redaction

open Section

/-! ## Databases -/

def hideResolution (r : Database.Resolution) : Database.Resolution where
  profiles := r.profiles.map conceal
  readProfile := conceal r.readProfile

theorem concealContents_concealContents (v : Value) : concealContents (concealContents v) = concealContents v := by
  cases v with
  | map es => rw [concealContents, concealContents, conceal_conceal]
  | _ => rfl

theorem map_conceal_map_conceal (r : Resolved Settings) : (r.map conceal).map conceal = r.map conceal := by
  cases r with
  | sole profile => simp only [Resolved.map, conceal_conceal]
  | named results => simp only [Resolved.map, List.map_map, Function.comp_def, conceal_conceal]

theorem primary_map_conceal (r : Resolved Settings) :
    (r.map conceal).primary?.getD [] = conceal (r.primary?.getD []) := by
  rw [Resolved.primary?, Resolved.primary?, Resolved.toList_map, List.head?_map]
  cases r.toList.head? <;> rfl

section

variable [Pattern.Compiler]

def finish (given : Value) (profiles : Resolved Settings) : Logged Database.Resolution := do
  for (name, profile) in profiles.toList do
    (Database.validate profile name : Except Fault Unit)
  let readProfile ← Database.readProfile given (.map (profiles.primary?.getD []))
  return { profiles, readProfile }

theorem finish_conceal (given : Value) (profiles : Resolved Settings) :
    hideResolution <$> finish (concealContents given) (profiles.map conceal)
      = hideResolution <$> finish given profiles := by
  have hrun : ∀ (given : Value) (profiles : Resolved Settings), hideResolution <$> finish given profiles = (do
      for e in profiles.toList do
        (Database.validate e.2 e.1 : Except Fault Unit)
      let readProfile ← conceal <$> Database.readProfile given (.map (profiles.primary?.getD []))
      return { profiles := profiles.map conceal, readProfile }) := by
    intro given profiles
    simp only [finish, map_bind, map_pure, bind_map_left]
    rfl
  rw [hrun, hrun, Resolved.toList_map, primary_map_conceal, readProfile_conceal, map_conceal_map_conceal]
  simp only [List.forIn_map, validate_conceal]

/-- Secrets have no part in whether and how the rest of the databases is resolved. -/
theorem resolve_hideDocument (document : Document) :
    hideResolution <$> Database.resolve (hideDocument document) = hideResolution <$> Database.resolve document := by
  have hrun : ∀ document, hideResolution <$> Database.resolve document = (do
      let tree ← (coalesce Database.isHeadingValue document : Except Fault Section.Tree)
      Logged.warn (tree.filterMap Database.strangerWarning?)
      let profiles ← Resolved.map conceal <$>
        (Database.cascade (tree.node "database")).resolve fun name _ settings => Database.fixUp name settings
      hideResolution <$> finish (concealContents (Database.plainAt tree "read-database")) profiles) := by
    intro document
    simp only [bind_map_left, finish_conceal]
    simp only [← map_bind]
    rfl
  have hread : Config.isExtra (.text "read-database", .null) = false := by decide
  rw [hrun, hrun, coalesce_hideDocument, Logged.lift_map, bind_map_left]
  simp only [strangerWarnings_hideTree, node_hideTree, cascade_conceal, resolve_concealSection,
    plainAt_hideTree _ hread, concealContents_concealContents]

end

/-! ## Sections -/

theorem index_hideDocument (document : Document) :
    Config.index (hideDocument document) = hideDocument <$> Config.index document := by
  rw [Config.index, Config.index, hideDocument, Settings.mapValues, List.foldlM_map]
  refine foldlM_eq_map (c := hideDocument) (fun sections e _ => ?_) []
  rcases e with ⟨key, value⟩
  cases key with
  | text name =>
    have hset : (hideDocument sections).set name (hideContents (.text name) value)
        = hideDocument (sections.set name value) :=
      Settings.set_mapValues byText_hideContents sections name value
    have hhas : (hideDocument sections).has name = sections.has name := Settings.has_mapValues _ _ _
    simp only [hset, hhas]
    split <;> rfl
  | _ => rfl

theorem get_hideDocument (sections : Settings) (name : String) :
    (hideDocument sections).get name = hideContents (.text name) (sections.get name) := by
  have hget : (hideDocument sections).get? name = (sections.get? name).map (hideContents (.text name)) :=
    Settings.get?_mapValues _ _ _
  rw [Settings.get, hget, Settings.get]
  cases sections.get? name with
  | none =>
    change Value.null = hideContents (.text name) .null
    rw [hideContents]
    split <;> rfl
  | some contents => rfl

theorem configSettingsOf_concealContents (heading : String) (contents : Value) :
    Config.settingsOf heading (concealContents contents) = conceal <$> Config.settingsOf heading contents := by
  cases contents <;> rfl

theorem defaultTo_conceal {name : String} (h : isSensitive name = false) (es : Settings) (value : Value) :
    Config.defaultTo (conceal es) name value = conceal (Config.defaultTo es name value) := by
  rw [Config.defaultTo, Config.defaultTo, get_conceal h, set_conceal_of_not_sensitive h]
  split <;> rfl

theorem globalsOf_concealContents (contents : Value) :
    Config.globalsOf (concealContents contents) = conceal <$> Config.globalsOf contents := by
  have hproduct : isSensitive "product-name" = false := isSensitive_of_mem (by decide)
  have hserver : isSensitive "update-server" = false := isSensitive_of_mem (by decide)
  simp only [Config.globalsOf, configSettingsOf_concealContents, Except.mapError_map, bind_map_left, map_bind, map_pure,
    defaultTo_conceal hproduct, get_conceal hproduct, set_conceal_of_not_sensitive hproduct, defaultTo_conceal hserver]

theorem configResolveSection_concealContents {spec : Schema.SectionSpec} (hd : Discreet spec) (heading : String)
    (contents : Value) :
    conceal <$> Config.resolveSection spec heading (concealContents contents)
      = conceal <$> Config.resolveSection spec heading contents := by
  simp only [Config.resolveSection, configSettingsOf_concealContents, Except.mapError_map, Logged.lift_map,
    bind_map_left, map_bind, resolveSection_conceal hd]

/-! ## Configurations -/

def hideExtra (extra : Settings) : Settings := extra.mapValues fun _ => hide

theorem hideExtra_hideExtra (extra : Settings) : hideExtra (hideExtra extra) = hideExtra extra := by
  rw [hideExtra, hideExtra, Settings.mapValues_mapValues]
  simp only [hide_hide]

theorem freezeEntries_hideExtra (extra : Settings) :
    freezeEntries (hideExtra extra) = hideExtra (freezeEntries extra) := by
  simp only [freezeEntries_eq_map, hideExtra, Settings.mapValues, List.map_map, Function.comp_def, freeze_hide]

theorem filter_isExtra_hideDocument (sections : Settings) :
    (hideDocument sections).filter Config.isExtra = hideExtra (sections.filter Config.isExtra) := by
  rw [hideDocument, Settings.filter_mapValues _ fun k v => isExtra_congr k _ _]
  refine List.map_congr_left fun e he => congrArg (e.1, ·) ?_
  have hextra : Config.isExtra (e.1, e.2) = true := (List.mem_filter.mp he).2
  rw [hideContents, if_pos hextra]

def concealConfig (c : Config) : Config where
  profiles := c.profiles.map conceal
  readProfile := conceal c.readProfile
  commandProcessing := conceal c.commandProcessing
  puppetdb := conceal c.puppetdb
  developer := conceal c.developer
  globals := conceal c.globals
  extra := hideExtra c.extra

theorem map_freezeEntries_conceal (r : Resolved Settings) :
    (r.map freezeEntries).map conceal = (r.map conceal).map freezeEntries := by
  cases r with
  | sole profile => simp only [Resolved.map, freezeEntries_conceal]
  | named results => simp only [Resolved.map, List.map_map, Function.comp_def, freezeEntries_conceal]

section

variable [Pattern.Compiler]

theorem configOfDocument_hideDocument (document : Document) (host : Host) :
    concealConfig <$> Config.ofDocument (hideDocument document) host
      = concealConfig <$> Config.ofDocument document host := by
  have hrun : ∀ document, concealConfig <$> Config.ofDocument document host = (do
      let sections ← ((Config.index document).mapError .config : Except Fault Settings)
      let globals ← conceal <$> (liftM (Config.globalsOf (sections.get "global")) : Logged Settings)
      let developer ← conceal <$> Config.resolveSection Schema.developer "developer" (sections.get "developer")
      let databases ← hideResolution <$> Database.resolve document
      let commandProcessing ← conceal <$> Config.resolveSection (Schema.commandProcessing host) "command-processing"
        (sections.get "command-processing")
      let puppetdb ← conceal <$> Config.resolveSection Schema.puppetdb "puppetdb" (sections.get "puppetdb")
      return {
        profiles := databases.profiles.map freezeEntries
        readProfile := freezeEntries databases.readProfile
        commandProcessing := freezeEntries commandProcessing
        puppetdb := freezeEntries puppetdb
        developer := freezeEntries developer
        globals := freezeEntries globals
        extra := hideExtra (freezeEntries (sections.filter Config.isExtra)) }) := by
    intro document
    simp only [Config.ofDocument, map_bind, map_pure, bind_map_left, concealConfig, hideResolution,
      map_freezeEntries_conceal, freezeEntries_conceal]
  have hget : ∀ name ∈ Config.resolvedHeadings, ∀ sections : Settings,
      (hideDocument sections).get name = concealContents (sections.get name) := by
    intro name hname sections
    have hextra : Config.isExtra (.text name, .null) = false := by simp [Config.isExtra, hname]
    rw [get_hideDocument, hideContents_of_not_extra hextra]
  have hglobal := hget "global" (by decide)
  have hdeveloper := hget "developer" (by decide)
  have hcommand := hget "command-processing" (by decide)
  have hpuppetdb := hget "puppetdb" (by decide)
  have hglobals : ∀ contents : Value,
      (conceal <$> liftM (Config.globalsOf (concealContents contents)) : Logged Settings)
        = conceal <$> liftM (Config.globalsOf contents) := by
    intro contents
    rw [globalsOf_concealContents, Logged.lift_map, Functor.map_map]
    simp only [conceal_conceal]
  rw [hrun, hrun, index_hideDocument, Except.mapError_map, Logged.lift_map, bind_map_left, resolve_hideDocument]
  simp only [hglobal, hdeveloper, hcommand, hpuppetdb, hglobals,
    configResolveSection_concealContents discreet_developer,
    configResolveSection_concealContents (discreet_commandProcessing host),
    configResolveSection_concealContents discreet_puppetdb, filter_isExtra_hideDocument, freezeEntries_hideExtra,
    hideExtra_hideExtra]

end

/-! ## Outcomes -/

theorem sets_hideContents (key contents : Value) (name : String) :
    Retirement.sets (hideContents key contents) name = Retirement.sets contents name := by
  have hmap : ∀ es : Settings, Retirement.sets (hideContents key (.map es)) name = es.has name := by
    intro es
    rw [hideContents]
    split
    · rw [hide, hideEntries_eq_mapValues]
      exact Settings.has_mapValues _ es name
    · exact has_conceal es name
  cases contents with
  | map es => exact hmap es
  | _ => rw [hideContents]; split <;> rfl

/-- Notices are on keys, which are not hidden. -/
theorem check_hideDocument (sections : Settings) :
    Retirement.check (hideDocument sections) = Retirement.check sections := by
  have hsets : ∀ heading name, Retirement.sets ((hideDocument sections).get heading) name
      = Retirement.sets (sections.get heading) name := by
    intro heading name
    rw [get_hideDocument, sets_hideContents]
  have hin : ∀ heading key contents keys, Retirement.noticesIn heading (hideContents key contents) keys
      = Retirement.noticesIn heading contents keys := by
    intro heading key contents keys
    rw [Retirement.noticesIn, funext (sets_hideContents key contents), Retirement.noticesIn]
  have hdatabase : Retirement.databaseNotices (hideDocument sections) = Retirement.databaseNotices sections := by
    rw [Retirement.databaseNotices, hideDocument, Settings.mapValues, List.flatMap_map, Retirement.databaseNotices]
    refine congrArg (List.flatMap · sections) (funext fun e => ?_)
    rcases e with ⟨key, contents⟩
    cases key with
    | text name => dsimp only; rw [hin]
    | _ => rfl
  have hnotices : Retirement.notices (hideDocument sections) = Retirement.notices sections := by
    have hhas : ∀ name, (hideDocument sections).has name = sections.has name := Settings.has_mapValues _ _
    simp only [Retirement.notices, Retirement.noticesIn, funext (hsets _), hdatabase, hhas]
  simp only [Retirement.check, hnotices, hsets]

def concealOutcome (o : Outcome) : Outcome := { o with config? := o.config?.map concealConfig }

section

variable [Pattern.Compiler]

theorem ofDocument_hideDocument (document : Document) (host : Host) :
    concealOutcome <$> Outcome.ofDocument (hideDocument document) host
      = concealOutcome <$> Outcome.ofDocument document host := by
  have hrun : ∀ document, concealOutcome <$> Outcome.ofDocument document host = (do
      let sections ← ((Config.index document).mapError .config : Except Fault Settings)
      let report ← Retirement.check sections
      if report.exitRequired then return { report, config? := none }
      else return { report, config? := some (← concealConfig <$> Config.ofDocument document host) }) := by
    intro document
    simp only [Outcome.ofDocument, map_bind, apply_ite (concealOutcome <$> ·), map_pure, bind_map_left]
    rfl
  rw [hrun, hrun, index_hideDocument, Except.mapError_map, Logged.lift_map, bind_map_left]
  simp only [check_hideDocument, configOfDocument_hideDocument]

end

end Stanza.Redaction
