import Stanza.Proofs.Config.Resolution
import Stanza.Proofs.Database.Reordered

/-! # Configurations of reordered documents

No section of a document depends on where it stands. What it has for databases can come in another order, and the
profile for reading that is derived from the first of them with it.
-/
namespace Stanza.Config

/-- The same configuration apart from the order of databases and extra sections and from the profile for reading. -/
structure Reorders (c d : Config) : Prop where
  globals : c.globals = d.globals
  developer : c.developer = d.developer
  commandProcessing : c.commandProcessing = d.commandProcessing
  puppetdb : c.puppetdb = d.puppetdb
  extra : c.extra.SameMapping d.extra
  profiles : c.profiles.toList.Perm d.profiles.toList
  names : d.profiles.names.Nodup

section

variable [Pattern.Compiler] {document other : Document} {host : Host}

theorem exists_ofDocument_of_perm (h : document.Perm other) {c : Config}
    (hc : (ofDocument document host).result = .ok c) :
    ∃ d, (ofDocument other host).result = .ok d ∧ c.Reorders d ∧
      (document.filter Database.inFamily = other.filter Database.inFamily ∨
        (∃ settings, (.text "read-database", .map settings) ∈ document) → c.readProfile = d.readProfile) := by
  obtain ⟨sections, globals, r, developer, commandProcessing, puppetdb, hi, hr, rfl⟩ := ofDocument_eq_ok_iff.mp hc
  obtain ⟨ht, rfl, hn⟩ := index_eq_self hi hr.databases
  have hto : Settings.TextKeys other := fun k hk => ht k ((h.map _).mem_iff.mpr hk)
  have hno : (Settings.keys other).Nodup := (h.map _).nodup_iff.mp hn
  have hget : ∀ name, Settings.get sections name = Settings.get other name := by
    intro name
    rw [Settings.get, Settings.get?_perm h hn, ← Settings.get]
  obtain ⟨q, hq, hperm⟩ := Database.exists_resolve_of_perm h ht hn hr.databases
  have hresolves : Resolves other other host globals q developer commandProcessing puppetdb :=
    ⟨hget _ ▸ hr.globals, hq, hget _ ▸ hr.developer, hget _ ▸ hr.commandProcessing, hget _ ▸ hr.puppetdb⟩
  refine ⟨assemble other globals q developer commandProcessing puppetdb, ?_, ⟨rfl, rfl, rfl, rfl, ?_, ?_, ?_⟩, ?_⟩
  · exact ofDocument_eq_ok_iff.mpr ⟨other, _, _, _, _, _, index_of_nodup hto hno, hresolves, rfl⟩
  · constructor
    · change (freezeEntries (List.filter isExtra sections)).Perm (freezeEntries (List.filter isExtra other))
      rw [freezeEntries_eq_map, freezeEntries_eq_map]
      exact (h.filter _).map _
    · change (Settings.keys (freezeEntries (List.filter isExtra other))).Nodup
      rw [freezeEntries_eq_map, Settings.keys_map]
      exact (List.filter_sublist.map _).nodup hno
  · change (r.profiles.map freezeEntries).toList.Perm (q.profiles.map freezeEntries).toList
    rw [Section.Resolved.toList_map, Section.Resolved.toList_map]
    exact hperm.map _
  · change (q.profiles.map freezeEntries).names.Nodup
    rw [Section.Resolved.names_map]
    exact (Database.names_of_resolve hto hq).2.1
  · exact fun hsame => congrArg freezeEntries (Database.readProfile_eq_of_perm h ht hn hr.databases hq hsame)

/-- Sections of a document may be put into any order. Only the profile for reading follows the first database. -/
theorem ofDocument_perm (document other : Document) (host : Host) (h : document.Perm other) :
    ((∃ c, (ofDocument document host).result = .ok c) ↔ ∃ d, (ofDocument other host).result = .ok d) ∧
    ∀ c d, (ofDocument document host).result = .ok c → (ofDocument other host).result = .ok d → c.Reorders d ∧
      (document.filter Database.inFamily = other.filter Database.inFamily ∨
        (∃ settings, (.text "read-database", .map settings) ∈ document) → c.readProfile = d.readProfile) := by
  refine ⟨⟨fun ⟨c, hc⟩ => ?_, fun ⟨d, hd⟩ => ?_⟩, fun c d hc hd => ?_⟩
  · obtain ⟨d, hd, _⟩ := exists_ofDocument_of_perm h hc
    exact ⟨d, hd⟩
  · obtain ⟨c, hc, _⟩ := exists_ofDocument_of_perm h.symm hd
    exact ⟨c, hc⟩
  · obtain ⟨d', hd', hsame⟩ := exists_ofDocument_of_perm h hc
    cases hd.symm.trans hd'
    exact hsame

end

/-- Two databases change places. -/
theorem ofDocument_perm_swap :
    ∃ c d, (ofDocument [(.text "database \"east\"", .map [(.text "subname", .text "//east")]),
        (.text "database \"west\"", .map [(.text "subname", .text "//west")])] ⟨4, 8192⟩).result = .ok c ∧
      (ofDocument [(.text "database \"west\"", .map [(.text "subname", .text "//west")]),
        (.text "database \"east\"", .map [(.text "subname", .text "//east")])] ⟨4, 8192⟩).result = .ok d ∧
      c.Reorders d := by
  let east : Value × Value := (.text "database \"east\"", .map [(.text "subname", .text "//east")])
  let west : Value × Value := (.text "database \"west\"", .map [(.text "subname", .text "//west")])
  let databases := [("east", [(Value.text "subname", Value.text "//east")]),
    ("west", [(Value.text "subname", Value.text "//west")])]
  have hdocument : [east, west] = Database.cascaded [] none databases := rfl
  have hnames : (([] ++ databases).map Prod.fst).Nodup := by decide
  have hclean : ∀ e ∈ [] ++ databases, Database.CleanName e.1 := by
    simp only [databases, List.nil_append, List.forall_mem_cons, List.not_mem_nil, false_imp_iff, implies_true, and_true]
    exact ⟨Database.cleanName_of_isControl (by decide), Database.cleanName_of_isControl (by decide)⟩
  obtain ⟨first, hfirst⟩ : ∃ profile, Database.Accepts (Settings.overlay (Option.getD none [])
    [(.text "subname", .text "//east")]) profile := ⟨_, rfl, rfl⟩
  obtain ⟨second, hsecond⟩ : ∃ profile, Database.Accepts (Settings.overlay (Option.getD none [])
    [(.text "subname", .text "//west")]) profile := ⟨_, rfl, rfl⟩
  have hresolve := (Database.resolve_subsections_eq_ok_iff hnames hclean (by simp [databases])).mpr
    ⟨⟨_, rfl⟩, [("east", first), ("west", second)], .cons ⟨rfl, hfirst⟩ (.cons ⟨rfl, hsecond⟩ .nil), rfl⟩
  obtain ⟨globals, hglobals⟩ : ∃ globals, globalsOf .null = .ok globals := ⟨_, rfl⟩
  obtain ⟨developer, hdeveloper⟩ : ∃ out, (resolveSection Schema.developer "developer" .null).result = .ok out := ⟨_, rfl⟩
  obtain ⟨puppetdb, hpuppetdb⟩ : ∃ out, (resolveSection Schema.puppetdb "puppetdb" .null).result = .ok out := ⟨_, rfl⟩
  obtain ⟨commands, hcommands⟩ : ∃ out, (resolveSection (Schema.commandProcessing ⟨4, 8192⟩) "command-processing"
    .null).result = .ok out := ⟨_, rfl⟩
  have hindex := index_of_regular (Database.regular_parts none hnames hclean)
  have hresolves : Resolves [east, west] [east, west] ⟨4, 8192⟩ globals
      ⟨.named [("east", first), ("west", second)], Database.derived first⟩ developer commands puppetdb :=
    ⟨hglobals, hresolve, hdeveloper, hcommands, hpuppetdb⟩
  have hc := ofDocument_eq_ok_iff.mpr ⟨_, _, _, _, _, _, hindex, hresolves, rfl⟩
  obtain ⟨hiff, hsame⟩ := ofDocument_perm [east, west] [west, east] ⟨4, 8192⟩ (.swap west east [])
  obtain ⟨d, hd⟩ := hiff.mp ⟨_, hc⟩
  exact ⟨_, d, hc, hd, (hsame _ d hc hd).1⟩

end Stanza.Config
