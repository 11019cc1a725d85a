import Stanza.Proofs.Config.Written

/-! # Configurations written out and resolved again

A configuration that has been written out is resolved to itself, up to the order of the settings within a section.
Each block is rendered and read back on its own; what one block is filled in from another is there already.
-/
namespace Stanza.Config

open Schema Database

/-- The same configuration, whatever the order of settings within a section. -/
structure Matches (c d : Config) : Prop where
  profiles : Section.Resolved.Rel Settings.SameMapping c.profiles d.profiles
  readProfile : c.readProfile.SameMapping d.readProfile
  commandProcessing : c.commandProcessing.SameMapping d.commandProcessing
  puppetdb : c.puppetdb.SameMapping d.puppetdb
  developer : c.developer.SameMapping d.developer
  globals : c.globals = d.globals
  extra : c.extra = d.extra

def blocks (c : Config) : List Settings :=
  c.profiles.toList.map (·.2) ++ [c.readProfile, c.commandProcessing, c.puppetdb, c.developer]

/-- No element of a list under some key holds a comma or a semicolon. -/
def SeparatedUnder (settings : Settings) (key : String) : Prop :=
  ∀ items, settings.get? key = some (.tuple items) → ∀ s, Value.text s ∈ items → ',' ∉ s.toList ∧ ';' ∉ s.toList

/-! ## Blocks -/

variable {spec : SectionSpec} {out : Settings}

theorem writable_of_freeze {v : Value} (h : v.freeze.Writable) : v.Writable := by
  cases v with
  | int n => exact h
  | _ => trivial

/-- What a block says in the frozen configuration. -/
theorem exists_rawSettings_frozen {retired : List String} (hc : Coherent spec) (hs : Sound spec out)
    (hn : (Settings.keys out).Nodup) (hw : ∀ e ∈ freezeEntries out, e.2.Writable)
    (hsep : ∀ field ∈ spec.outgoing.fields, field.kind = .texts → SeparatedUnder (freezeEntries out) field.name)
    (hr : ∀ key ∈ retired, Dump.restorable spec key = true) :
    ∃ raw, Dump.rawSettings spec (freezeEntries out) retired = .ok raw ∧ Dump.Restores spec raw out ∧
      (Dump.AtDefault spec retired out → ∀ key ∈ retired, raw.has key = false) := by
  rw [freezeEntries_eq_map, List.forall_mem_map] at hw
  have hseparated : Separated spec.outgoing out := by
    intro field hf hk items hv s hm
    refine hsep field hf hk (freezeItems items) (by rw [get?_freezeEntries, hv]; rfl) s ?_
    rw [freezeItems_eq_map]
    exact List.mem_map.mpr ⟨.text s, hm, rfl⟩
  refine Dump.exists_rawSettings hc hs hn (fun e he => writable_of_freeze (hw e he)) (fun e he => ?_) hr
  obtain ⟨name, hname⟩ := hs.textKeys e.1 (List.mem_map_of_mem he)
  exact hs.separated_iff.mp hseparated name e.2 (Settings.get?_of_mem hn (hname ▸ he))

/-- A section of a document with a block of its own. -/
theorem exists_rawSection {document : Settings} {retired : List String} (hc : Coherent spec)
    (hd : ∀ key entries, (key, .map entries) ∈ document → Settings.Distinct entries) {heading : String}
    (h : (resolveSection spec heading (document.get heading)).result = .ok out)
    (hw : ∀ e ∈ freezeEntries out, e.2.Writable) (hkind : ∀ field ∈ spec.outgoing.fields, field.kind ≠ .texts)
    (hr : ∀ key ∈ retired, Dump.restorable spec key = true) :
    ∃ raw, Dump.rawSettings spec (freezeEntries out) retired = .ok raw ∧ Dump.Restores spec raw out ∧
      ((∀ key ∈ retired, Retirement.sets (document.get heading) key = false) → ∀ key ∈ retired, raw.has key = false) := by
  obtain ⟨settings, hset, hres⟩ := resolveSection_eq_ok_iff.mp h
  have hsettings : settings.Distinct ∧
      ∀ key, Retirement.sets (document.get heading) key = false → settings.has key = false := by
    rw [Settings.get] at hset ⊢
    cases hv : document.get? heading with
    | none =>
      rw [hv] at hset
      cases hset
      exact ⟨List.Pairwise.nil, fun _ _ => rfl⟩
    | some v =>
      rw [hv] at hset
      cases v with
      | null => cases hset; exact ⟨List.Pairwise.nil, fun _ _ => rfl⟩
      | map entries => cases hset; exact ⟨hd _ _ (Settings.mem_of_get? hv), fun _ h => h⟩
      | _ => cases hset
  obtain ⟨raw, hraw, hrest, hquiet⟩ := exists_rawSettings_frozen hc (sound_of_resolveSection hc hres)
    (nodup_keys_of_resolveSection hsettings.1 hres) hw (fun field hf hk => absurd hk (hkind field hf)) hr
  -- a retired setting that was not in the document has its default, and is left out again
  refine ⟨raw, hraw, hrest, fun hq => hquiet ?_⟩
  exact Dump.atDefault_of_resolveSection hc hr (fun key hkey => hsettings.2 key (hq key hkey)) hres

/-! ## Raw forms of the blocks -/

theorem exists_resolveSection_of_restores {raw : Settings} (h : Dump.Restores spec raw out) (heading : String) :
    ∃ again, (resolveSection spec heading (.map raw)).result = .ok again ∧ again.SameMapping out := by
  obtain ⟨again, hagain, hsame⟩ := h.again
  exact ⟨again, resolveSection_eq_ok_iff.mpr ⟨raw, rfl, by rw [hagain]⟩, hsame⟩

theorem outgoing_commandProcessing_kind (host : Host) :
    ∀ field ∈ (Schema.commandProcessing host).outgoing.fields, field.kind ≠ .texts :=
  (by decide : ∀ field ∈ (Schema.commandProcessing ⟨1, 0⟩).outgoing.fields, field.kind ≠ .texts)

/-- Profiles and raw forms of them have the same names. -/
theorem clean_of_rel {R : Settings → Settings → Prop} {raws profiles : Section.Resolved Settings}
    (hrel : Section.Resolved.Rel R raws profiles)
    (hclean : ∀ e ∈ profiles.toList, ∀ name, e.1 = some name → CleanName name) :
    ∀ e ∈ raws.toList, ∀ name, e.1 = some name → CleanName name := by
  intro e he name hname
  obtain ⟨d, hd, hed, _⟩ := hrel.toList.exists_of_mem_left he
  exact hclean d hd name (hed ▸ hname)

section

variable [Pattern.Compiler] {document : Document} {host : Host} {globals developer commands puppetdb : Settings}
  {databases : Resolution} {raw : Dump.Raw}

/-- A raw form of each profile. -/
theorem exists_rawProfiles (htext : Settings.TextKeys document)
    (hd : ∀ key entries, (key, .map entries) ∈ document → Settings.Distinct entries)
    (h : (Database.resolve document).result = .ok databases)
    (hw : ∀ e ∈ databases.profiles.toList, ∀ f ∈ freezeEntries e.2, f.2.Writable)
    (hlists : ∀ e ∈ databases.profiles.toList, SeparatedUnder (freezeEntries e.2) "facts-blacklist") :
    ∃ raws, Section.Resolved.Rel (fun raw profile =>
      Dump.rawSettings writeDatabase (freezeEntries profile) Retirement.databaseKeys = .ok raw ∧
      Dump.Restores writeDatabase raw profile ∧
      (Dump.AtDefault writeDatabase Retirement.databaseKeys profile → Unretired raw)) raws databases.profiles := by
  refine Section.Resolved.exists_rel fun e he => ?_
  refine exists_rawSettings_frozen coherent_writeDatabase (fixedUp_of_resolve h he).sound
    (nodup_keys_of_resolve htext hd h e he) (hw e he) (fun field hf hk => ?_) Dump.restorable_writeDatabase
  have hname : ∀ field ∈ writeDatabase.outgoing.fields, field.kind = .texts → field.name = "facts-blacklist" := by decide
  rw [hname field hf hk]
  exact hlists e he

/-- A raw form of the profile for reading. -/
theorem exists_rawReadProfile (htext : Settings.TextKeys document)
    (hd : ∀ key entries, (key, .map entries) ∈ document → Settings.Distinct entries)
    (h : (Database.resolve document).result = .ok databases)
    (hw : ∀ e ∈ freezeEntries databases.readProfile, e.2.Writable)
    (hlists : SeparatedUnder (freezeEntries databases.readProfile) "facts-blacklist") :
    ∃ raw, Dump.rawSettings Schema.database (freezeEntries databases.readProfile) Retirement.databaseKeys = .ok raw ∧
      Dump.Restores Schema.database raw databases.readProfile ∧
      (Dump.AtDefault Schema.database Retirement.databaseKeys databases.readProfile → Unretired raw) := by
  obtain ⟨hreadable, hn⟩ := readable_of_resolve htext hd h
  refine exists_rawSettings_frozen coherent_database hreadable.sound hn hw (fun field hf hk => ?_) Dump.restorable_database
  have hname : ∀ field ∈ databaseOut.fields, field.kind = .texts → field.name = "facts-blacklist" := by decide
  rw [hname field hf hk]
  exact hlists

structure Restores (raw : Dump.Raw) (host : Host) (databases : Resolution) (developer commands puppetdb : Settings) :
    Prop where
  profiles : Section.Resolved.Rel (Dump.Restores writeDatabase) raw.profiles databases.profiles
  readProfile : Dump.Restores Schema.database raw.readProfile databases.readProfile
  commandProcessing : Dump.Restores (Schema.commandProcessing host) raw.commandProcessing commands
  puppetdb : Dump.Restores Schema.puppetdb raw.puppetdb puppetdb
  developer : Dump.Restores Schema.developer raw.developer developer
  globals : Complete raw.globals

/-- The raw sections make up a document that is resolved to the blocks they restore. -/
theorem Restores.exists_resolves (hr : Restores raw host databases developer commands puppetdb) (hwr : Writable raw)
    (hne : databases.profiles.toList ≠ [])
    (hprofiles : ∀ e ∈ databases.profiles.toList, FixedUp e.2 ∧ validate e.2 e.1 = .ok ())
    (hreadable : Readable databases.readProfile) :
    ∃ databases' developer' commands' puppetdb',
      Resolves (raw.parts.map Part.entry) (raw.parts.map Part.entry) host raw.globals databases' developer' commands'
        puppetdb' ∧
      Section.Resolved.Rel Settings.SameMapping databases'.profiles databases.profiles ∧
      databases'.readProfile.SameMapping databases.readProfile ∧ developer'.SameMapping developer ∧
      commands'.SameMapping commands ∧ puppetdb'.SameMapping puppetdb := by
  obtain ⟨databases', hdatabases, hsame, hsameRead⟩ := exists_resolve_written hwr.regular hne hr.profiles hprofiles
    hreadable hr.readProfile (by simp [Dump.Raw.front, Dump.Raw.back])
  obtain ⟨developer', hdev, hsameDev⟩ := exists_resolveSection_of_restores hr.developer "developer"
  obtain ⟨commands', hcom, hsameCom⟩ := exists_resolveSection_of_restores hr.commandProcessing "command-processing"
  obtain ⟨puppetdb', hpup, hsamePup⟩ := exists_resolveSection_of_restores hr.puppetdb "puppetdb"
  refine ⟨databases', developer', commands', puppetdb', ⟨?_, hdatabases, ?_, ?_, ?_⟩, hsame, hsameRead, hsameDev,
    hsameCom, hsamePup⟩
  · rw [hwr.get (by simp [Dump.Raw.front] : ("global", Value.map raw.globals) ∈ _)]
    exact globalsOf_of_complete hr.globals
  · rw [hwr.get (by simp [Dump.Raw.front, Dump.Raw.back] : ("developer", Value.map raw.developer) ∈ _)]
    exact hdev
  · rw [hwr.get (by simp [Dump.Raw.front, Dump.Raw.back] : ("command-processing", Value.map raw.commandProcessing) ∈ _)]
    exact hcom
  · rw [hwr.get (by simp [Dump.Raw.front, Dump.Raw.back] : ("puppetdb", Value.map raw.puppetdb) ∈ _)]
    exact hpup

/-- What is not retired in a document is not retired in the raw forms of its blocks. -/
theorem current_of_quiet (htext : Settings.TextKeys document)
    (hd : ∀ key entries, (key, .map entries) ∈ document → Settings.Distinct entries)
    (hres : Resolves document document host globals databases developer commands puppetdb)
    (hprofiles : Section.Resolved.Rel (fun raw profile =>
      Dump.AtDefault writeDatabase Retirement.databaseKeys profile → Unretired raw) raw.profiles databases.profiles)
    (hread : Dump.AtDefault Schema.database Retirement.databaseKeys databases.readProfile → Unretired raw.readProfile)
    (hcommands : (∀ key ∈ Retirement.commandProcessingKeys,
      Retirement.sets (Settings.get document "command-processing") key = false) →
        ∀ key ∈ Retirement.commandProcessingKeys, raw.commandProcessing.has key = false)
    (hglobals : ∀ name, raw.globals.has name = globals.has name)
    (hextra : Settings.keys (others raw.extras) = Settings.keys (document.filter isExtra))
    (hq : Retirement.Quiet document) : Current raw where
  profiles := by
    intro e he
    obtain ⟨d, hdm, _, hraw⟩ := hprofiles.toList.exists_of_mem_left he
    exact hraw (atDefault_of_resolve htext (fun key entries hk hm => hq.databases key (.map entries) hm (.inl hk))
      hres.databases d hdm)
  readProfile :=
    hread (atDefault_readProfile htext hd (fun key entries hk hm => hq.databases key (.map entries) hm hk) hres.databases)
  commandProcessing := hcommands hq.commandProcessing
  globals := by
    intro key hkey
    have hne : ∀ key ∈ Retirement.globalKeys, "product-name" ≠ key ∧ "update-server" ≠ key := by decide
    rw [hglobals, sets_of_globalsOf hres.globals (hne key hkey).1 (hne key hkey).2]
    exact hq.globals key hkey
  extras := by
    intro block hb
    rw [Bool.eq_false_iff, Ne, Settings.has_iff_mem_keys, hextra]
    intro hm
    have hhas : Settings.has document block.1 = true :=
      Settings.has_iff_mem_keys.mpr ((List.filter_sublist.map _).mem hm)
    rw [hq.blocks block hb] at hhas
    cases hhas

/-- Every block of a document has a raw form. -/
theorem exists_raw (htext : Settings.TextKeys document) (hnodup : (Settings.keys document).Nodup)
    (hd : ∀ key entries, (key, .map entries) ∈ document → Settings.Distinct entries)
    (hres : Resolves document document host globals databases developer commands puppetdb) {c : Config}
    (hc : assemble document globals databases developer commands puppetdb = c)
    (hextra : ∀ e ∈ c.extra, e.2.isMap = true)
    (hlists : ∀ settings ∈ c.readProfile :: c.profiles.toList.map (·.2), SeparatedUnder settings "facts-blacklist")
    (hw : ∀ settings ∈ c.blocks, ∀ e ∈ settings, e.2.Writable) :
    ∃ raw : Dump.Raw, raw.Renders c host ∧ Restores raw host databases developer commands puppetdb ∧ Writable raw ∧
      freezeEntries raw.globals = c.globals ∧ freezeEntries (others raw.extras) = c.extra ∧
      (∀ name, raw.globals.has name = globals.has name) ∧ (Retirement.Quiet document → Current raw) := by
  subst hc
  rw [blocks, assemble, Section.Resolved.toList_map, List.map_map] at hw
  rw [assemble, Section.Resolved.toList_map, List.map_map] at hlists
  simp only [List.forall_mem_append, List.forall_mem_cons, List.forall_mem_map, List.not_mem_nil, false_imp_iff,
    implies_true, and_true] at hw hlists
  obtain ⟨hwProfiles, hwRead, hwCommands, hwPuppetdb, hwDeveloper⟩ := hw
  obtain ⟨raws, hraws⟩ := exists_rawProfiles htext hd hres.databases hwProfiles hlists.2
  obtain ⟨rawRead, hread, hrestRead, hquietRead⟩ := exists_rawReadProfile htext hd hres.databases hwRead hlists.1
  obtain ⟨rawCommands, hcommands, hrestCommands, hquietCommands⟩ := exists_rawSection (coherent_commandProcessing host) hd
    hres.commandProcessing hwCommands (outgoing_commandProcessing_kind host) (Dump.restorable_commandProcessing host)
  obtain ⟨rawPuppetdb, hpuppetdb, hrestPuppetdb, _⟩ := @exists_rawSection _ _ _ [] coherent_puppetdb hd _ hres.puppetdb
    hwPuppetdb (by decide) (by simp)
  obtain ⟨rawDeveloper, hdeveloper, hrestDeveloper, _⟩ := @exists_rawSection _ _ _ [] coherent_developer hd _
    hres.developer hwDeveloper (by decide) (by simp)
  obtain ⟨extras, hextras⟩ := exists_others hextra
  have hnextra : (Settings.keys (others extras)).Nodup := hextras ▸ (List.filter_sublist.map _).nodup hnodup
  have hother : ∀ x ∈ extras, IsOther x.1 := by
    intro x hx
    have hm : (.text x.1, .map x.2) ∈ document.filter isExtra := hextras ▸ List.mem_map_of_mem hx
    exact isExtra_text_iff.mp (List.mem_filter.mp hm).2
  obtain ⟨hclean, hnames, _⟩ := names_of_resolve htext hres.databases
  refine ⟨⟨thawEntries (freezeEntries globals), raws, rawRead, rawCommands, rawPuppetdb, rawDeveloper, thawed extras⟩,
    ?_, ?_, ?_, freezeEntries_thawEntries globals, ?_, has_thawEntries_freezeEntries globals, ?_⟩
  · refine ⟨rfl, (hraws.imp_of_mem fun _ _ _ h => h.1).map_right, hread, hcommands, hpuppetdb, hdeveloper, ?_⟩
    exact forall₂_extra _ (congrArg freezeEntries hextras) hnextra fun x hx => (hother x hx).not_mem_blockNames
  · exact ⟨hraws.imp_of_mem fun _ _ _ h => h.2.1, hrestRead, hrestCommands, hrestPuppetdb, hrestDeveloper,
      (complete_of_globalsOf hres.globals).thaw_freeze⟩
  · refine ⟨clean_of_rel hraws hclean, hraws.names ▸ hnames, by rwa [keys_others_thawed], fun x hx => ?_⟩
    obtain ⟨y, hy, rfl⟩ := List.mem_map.mp hx
    exact hother y hy
  · rw [freezeEntries_others_thawed, ← hextras]
    rfl
  · exact current_of_quiet htext hd hres (hraws.imp_of_mem fun _ _ _ h => h.2.2) hquietRead hquietCommands
      (has_thawEntries_freezeEntries globals) (by rw [keys_others_thawed, ← hextras])

/-! ## Reloading -/

/-- The configuration of the raw sections is the one they were rendered from. -/
theorem exists_again (htext : Settings.TextKeys document)
    (hd : ∀ key entries, (key, .map entries) ∈ document → Settings.Distinct entries)
    (hres : Resolves document document host globals databases developer commands puppetdb) {c : Config}
    (hc : assemble document globals databases developer commands puppetdb = c)
    (hr : Restores raw host databases developer commands puppetdb) (hwr : Writable raw)
    (hglobals : freezeEntries raw.globals = c.globals) (hextra : freezeEntries (others raw.extras) = c.extra) :
    index (raw.parts.map Part.entry) = .ok (raw.parts.map Part.entry) ∧
      ∃ again, (ofDocument (raw.parts.map Part.entry) host).result = .ok again ∧ again.Matches c := by
  have hindex := index_of_regular hwr.regular
  obtain ⟨databases', developer', commands', puppetdb', hagain, hprofiles, hread, hdeveloper, hcommands, hpuppetdb⟩ :=
    hr.exists_resolves hwr (names_of_resolve htext hres.databases).2.2
      (fun e he => ⟨fixedUp_of_resolve hres.databases he, validate_of_resolve hres.databases he⟩)
      (readable_of_resolve htext hd hres.databases).1
  refine ⟨hindex, _, ofDocument_eq_ok_iff.mpr ⟨_, _, _, _, _, _, hindex, hagain, rfl⟩, ?_⟩
  subst hc
  refine ⟨?_, sameMapping_freezeEntries hread, sameMapping_freezeEntries hcommands, sameMapping_freezeEntries hpuppetdb,
    sameMapping_freezeEntries hdeveloper, hglobals, ?_⟩
  · exact (hprofiles.imp_of_mem fun _ _ _ h => sameMapping_freezeEntries h).map_left.map_right
  · rw [assemble, hwr.filter_isExtra, hextra]

/-- Resolving what is written out of a configuration gives the same configuration, and no notice if there was none
before. -/
theorem ofDocument_sections {o : Outcome} {c : Config}
    (hd : ∀ key entries, (key, .map entries) ∈ document → Settings.Distinct entries)
    (h : (Outcome.ofDocument document host).result = .ok o) (hc : o.config? = some c)
    (hextra : ∀ e ∈ c.extra, e.2.isMap = true)
    (hlists : ∀ settings ∈ c.readProfile :: c.profiles.toList.map (·.2), SeparatedUnder settings "facts-blacklist")
    (hw : ∀ settings ∈ c.blocks, ∀ e ∈ settings, e.2.Writable) :
    ∃ shown again c', Dump.sections c host = .ok shown ∧
      (Outcome.ofDocument (Dump.document shown) host).result = .ok again ∧ again.config? = some c' ∧ c'.Matches c ∧
      (o.report.notices = [] → again.report.notices = []) := by
  obtain ⟨sections, hi, hfatal, hconfig, rfl⟩ := Outcome.ofDocument_eq_ok_iff.mp ⟨h, hc⟩
  obtain ⟨_, globals, databases, developer, commands, puppetdb, hi', hres, hassemble⟩ := ofDocument_eq_ok_iff.mp hconfig
  cases hi.symm.trans hi'
  obtain ⟨htext, rfl, hnodup⟩ := index_eq_self hi hres.databases
  obtain ⟨raw, hrenders, hr, hwr, hglobals, hothers, hsame, hquiet⟩ :=
    exists_raw htext hnodup hd hres hassemble hextra hlists hw
  obtain ⟨hindex, c', hagain, hmatches⟩ := exists_again htext hd hres hassemble hr hwr hglobals hothers
  have hurl : Retirement.sets (Settings.get (raw.parts.map Part.entry) "global") Retirement.urlPrefix.key = false := by
    rw [hwr.get (by simp [Dump.Raw.front] : ("global", Value.map raw.globals) ∈ _)]
    change raw.globals.has Retirement.urlPrefix.key = false
    rw [hsame, sets_of_globalsOf hres.globals (by decide) (by decide), hfatal]
  obtain ⟨hsecond, hconfig'⟩ := Outcome.ofDocument_eq_ok_iff.mpr ⟨_, hindex, hurl, hagain, rfl⟩
  refine ⟨_, _, c', hrenders.sections_eq, ?_, hconfig', hmatches, fun hnone => ?_⟩
  · rw [Dump.document_shown]
    exact hsecond
  · exact Retirement.notices_eq_nil_iff.mpr (hwr.quiet (hquiet (Retirement.notices_eq_nil_iff.mp hnone)))

end

theorem separatedUnder_of_get? {settings : Settings} {key : String} {texts : List String}
    (h : settings.get? key = some (.tuple (texts.map .text)))
    (ht : texts.all (fun s => !s.toList.contains ',' && !s.toList.contains ';') = true) : SeparatedUnder settings key := by
  intro items hitems s hs
  rw [h] at hitems
  cases hitems
  obtain ⟨_, hm, heq⟩ := List.mem_map.mp hs
  cases heq
  simpa using List.all_eq_true.mp ht s hm

/-- A database with a list of facts, and a section of another program. -/
theorem ofDocument_sections_facts :
    ∃ o c shown again c', (Outcome.ofDocument [
      (.text "global", .map [(.text "product-name", .text "PE-PuppetDB")]),
      (.text "database", .map [(.text "subname", .text "//localhost/db"), (.text "username", .text "db"),
        (.text "facts-blacklist", .text "a, b")]),
      (.text "nrepl", .map [(.text "hosts", .list [.text "a"])])] ⟨4, 8192⟩).result = .ok o ∧ o.config? = some c ∧
      Dump.sections c ⟨4, 8192⟩ = .ok shown ∧ (Outcome.ofDocument (Dump.document shown) ⟨4, 8192⟩).result = .ok again ∧
      again.config? = some c' ∧ c'.Matches c ∧ again.report.notices = [] := by
  have hregular : Regular (Database.written [("global", .map [(.text "product-name", .text "PE-PuppetDB")])]
      (.sole [(.text "subname", .text "//localhost/db"), (.text "username", .text "db"),
        (.text "facts-blacklist", .text "a, b")]) [("nrepl", .map [(.text "hosts", .list [.text "a"])])]) := by
    refine regular_written (by simp [Section.Resolved.toList]) List.nodup_nil (by simp [entries, Settings.keys]) ?_
    simp only [List.cons_append, List.nil_append, List.forall_mem_cons, List.not_mem_nil, false_imp_iff, implies_true,
      and_true]
    decide
  obtain ⟨profile, ha, hwProfile, hlist, hwRead, hlistRead⟩ : ∃ profile,
      Accepts [(.text "subname", .text "//localhost/db"), (.text "username", .text "db"),
        (.text "facts-blacklist", .text "a, b")] profile ∧
      (freezeEntries profile).all (fun e => decide e.2.Writable) = true ∧
      Settings.get? (freezeEntries profile) "facts-blacklist" = some (.tuple (["a", "b"].map .text)) ∧
      (freezeEntries (derived profile)).all (fun e => decide e.2.Writable) = true ∧
      Settings.get? (freezeEntries (derived profile)) "facts-blacklist" = some (.tuple (["a", "b"].map .text)) :=
    ⟨_, ⟨rfl, rfl⟩, rfl, rfl, rfl, rfl⟩
  have hdatabases := (resolve_parts_eq_ok_iff hregular (r := ⟨.sole profile, derived profile⟩)).mpr
    ⟨resolve_database_written (by simp [Section.Resolved.toList])
      (.sole ⟨by decide, fun name => (result_fixUp_congr none name).mp ha.1⟩),
      fun e he => List.mem_singleton.mp he ▸ ha.2, ha.deriveReadProfile⟩
  obtain ⟨globals, hglobals⟩ : ∃ globals, globalsOf (.map [(.text "product-name", .text "PE-PuppetDB")]) = .ok globals :=
    ⟨_, rfl⟩
  obtain ⟨developer, hdeveloper, hwDeveloper⟩ : ∃ out, (resolveSection Schema.developer "developer" .null).result = .ok out ∧
      (freezeEntries out).all (fun e => decide e.2.Writable) = true := ⟨_, rfl, rfl⟩
  obtain ⟨puppetdb, hpuppetdb, hwPuppetdb⟩ : ∃ out, (resolveSection Schema.puppetdb "puppetdb" .null).result = .ok out ∧
      (freezeEntries out).all (fun e => decide e.2.Writable) = true := ⟨_, rfl, rfl⟩
  obtain ⟨commands, hcommands, hwCommands⟩ : ∃ out,
      (resolveSection (Schema.commandProcessing ⟨4, 8192⟩) "command-processing" .null).result = .ok out ∧
      (freezeEntries out).all (fun e => decide e.2.Writable) = true := ⟨_, rfl, rfl⟩
  have hconfig := ofDocument_eq_ok_iff.mpr ⟨_, _, _, _, _, _, index_of_regular hregular,
    ⟨hglobals, hdatabases, hdeveloper, hcommands, hpuppetdb⟩, rfl⟩
  obtain ⟨ho, hc⟩ := Outcome.ofDocument_eq_ok_iff.mpr ⟨_, index_of_regular hregular, rfl, hconfig, rfl⟩
  have hdistinct : ∀ key entries, (key, Value.map entries) ∈ ([
      (.text "global", .map [(.text "product-name", .text "PE-PuppetDB")]),
      (.text "database", .map [(.text "subname", .text "//localhost/db"), (.text "username", .text "db"),
        (.text "facts-blacklist", .text "a, b")]),
      (.text "nrepl", .map [(.text "hosts", .list [.text "a"])])] : Document) → Settings.Distinct entries := by
    intro key entries hm
    simp only [List.mem_cons, List.not_mem_nil, or_false, Prod.mk.injEq, Value.map.injEq] at hm
    rcases hm with ⟨_, rfl⟩ | ⟨_, rfl⟩ | ⟨_, rfl⟩ <;> decide
  have hextra := List.all_eq_true.mp (rfl : List.all
    (freezeEntries [(.text "nrepl", .map [(.text "hosts", .list [.text "a"])])]) (fun e => e.2.isMap) = true)
  have hseparated : ∀ settings ∈ [freezeEntries (derived profile), freezeEntries profile],
      SeparatedUnder settings "facts-blacklist" := by
    simp only [List.forall_mem_cons, List.not_mem_nil, false_imp_iff, implies_true, and_true]
    exact ⟨separatedUnder_of_get? hlistRead (by decide), separatedUnder_of_get? hlist (by decide)⟩
  have hwritable : ∀ settings ∈ [freezeEntries profile, freezeEntries (derived profile), freezeEntries commands,
      freezeEntries puppetdb, freezeEntries developer], ∀ e ∈ settings, e.2.Writable := by
    have hall : ∀ es : Settings, es.all (fun e => decide e.2.Writable) = true → ∀ e ∈ es, e.2.Writable :=
      fun es h e he => of_decide_eq_true (List.all_eq_true.mp h e he)
    simp only [List.forall_mem_cons, List.not_mem_nil, false_imp_iff, implies_true, and_true]
    exact ⟨hall _ hwProfile, hall _ hwRead, hall _ hwCommands, hall _ hwPuppetdb, hall _ hwDeveloper⟩
  obtain ⟨shown, again, c', hshown, hagain, hc', hmatches, hnotices⟩ :=
    ofDocument_sections hdistinct ho hc hextra hseparated hwritable
  exact ⟨_, _, shown, again, c', ho, hc, hshown, hagain, hc', hmatches, hnotices rfl⟩

end Stanza.Config
