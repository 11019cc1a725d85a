import Stanza.Proofs.Database.Named
import Stanza.Proofs.Load
import Stanza.Proofs.Logged.Failure

/-! # Nested tables

Every table in the database section of a file becomes an entry of the document, labelled as a subsection. A name with a
line feed makes a label that is no heading of a database: such a table stays with the sections that nothing resolves,
and the others become profiles under their names.
-/
namespace Stanza.Load

open Database Section

variable {path : Path} {document : Document}

/-! ## Files -/

theorem flatten_append_eq_ok_iff {xs ys : Settings} : flatten path (xs ++ ys) = .ok document ↔
    ∃ front, flatten path xs = .ok front ∧ ∃ back, flatten path ys = .ok back ∧ front ++ back = document := by
  simp only [flatten, List.mapM_append, Except.bind_eq_ok_iff, pure, Except.pure, Except.ok.injEq]
  constructor
  · rintro ⟨_, ⟨front, hf, back, hb, rfl⟩, rfl⟩
    exact ⟨_, ⟨front, hf, rfl⟩, _, ⟨back, hb, rfl⟩, List.flatten_append.symm⟩
  · rintro ⟨_, ⟨front, hf, rfl⟩, _, ⟨back, hb, rfl⟩, rfl⟩
    exact ⟨_, ⟨front, hf, back, hb, rfl⟩, List.flatten_append⟩

theorem flatten_section (name : String) (settings : Settings) :
    flatten path [(.text name, .map settings)] = sectionEntries name settings := by
  simp only [flatten, List.mapM_cons, List.mapM_nil, bind_assoc, pure_bind, List.flatten_cons, List.flatten_nil,
    List.append_nil, bind_pure]

/-- Neither other sections nor tables in them become databases. -/
theorem not_isHeading_of_flatten {root : Settings}
    (hroot : ∀ e ∈ root, ∀ key, e.1 = .text key → isHeading key = false) (h : flatten path root = .ok document) :
    ∀ e ∈ document, ∃ key, e.1 = .text key ∧ isHeading key = false := by
  intro e he
  obtain ⟨header, hm, hlabel⟩ := exists_header_of_flatten h he
  obtain ⟨f, hs, hkey⟩ := List.mem_map.mp hm
  refine ⟨_, hlabel, Bool.eq_false_iff.mpr fun hk => ?_⟩
  exact Bool.eq_false_iff.mp (hroot f hs header.name hkey) (isHeading_of_label hk)

def IsPlain (part : Part) : Prop := ∃ name contents, part = .plain name contents ∧ isHeading name = false

theorem exists_plain_of_flatten {root : Settings}
    (hroot : ∀ e ∈ root, ∀ key, e.1 = .text key → isHeading key = false) (h : flatten path root = .ok document) :
    ∃ parts : List Part, document = parts.map Part.entry ∧ ∀ part ∈ parts, IsPlain part := by
  have hex : ∀ e ∈ document, ∃ part : Part, part.entry = e ∧ IsPlain part := by
    rintro ⟨key, contents⟩ he
    obtain ⟨name, rfl, hname⟩ := not_isHeading_of_flatten hroot h _ he
    exact ⟨.plain name contents, rfl, name, contents, rfl, hname⟩
  obtain ⟨parts, hparts⟩ := List.exists_forall₂ hex
  refine ⟨parts, ?_, ?_⟩
  · rw [← List.forall₂_eq_eq_eq, List.forall₂_map_right_iff]
    exact hparts.imp fun _ _ h => h.1.symm
  · intro part hm
    obtain ⟨_, _, _, hplain⟩ := hparts.exists_of_mem_right hm
    exact hplain

/-! ## Tables of the database section -/

def tablePart (t : String × Settings) : Part :=
  if '\n' ∈ t.1.toList then .plain (label (some t.1)) (.map t.2) else .sub t.1 t.2

theorem entry_tablePart (t : String × Settings) : (tablePart t).entry = tableEntry "database" t := by
  rw [tablePart]
  split <;> rfl

/-- The parts of a document from a file with tables in its database section. -/
def nested (before : List Part) (own : Option Settings) (tables : List (String × Settings)) (after : List Part) :
    List Part :=
  before ++ (own.toList.map .own ++ tables.map tablePart) ++ after

theorem exists_nested_of_flatten {before after settings : Settings}
    (hothers : ∀ e ∈ before ++ after, ∀ key, e.1 = .text key → isHeading key = false)
    (h : flatten path (before ++ (.text "database", .map settings) :: after) = .ok document) :
    ∃ front own tables back, Option.getD own [] = scalars settings ∧ TablesOf settings tables ∧
      (∀ part ∈ front ++ back, IsPlain part) ∧ document = (nested front own tables back).map Part.entry := by
  obtain ⟨_, hb, _, hrest, rfl⟩ := flatten_append_eq_ok_iff.mp h
  rw [← List.singleton_append, flatten_append_eq_ok_iff, flatten_section] at hrest
  obtain ⟨_, hd, _, ha, rfl⟩ := hrest
  obtain ⟨front, rfl, hfront⟩ := exists_plain_of_flatten (fun e he => hothers e (List.mem_append_left _ he)) hb
  obtain ⟨back, rfl, hback⟩ := exists_plain_of_flatten (fun e he => hothers e (List.mem_append_right _ he)) ha
  obtain ⟨own, tables, hown, hnames, rfl⟩ := sectionEntries_eq_ok hd
  refine ⟨front, own, tables, back, hown, hnames, List.forall_mem_append.mpr ⟨hfront, hback⟩, ?_⟩
  simp only [nested, List.map_append, List.map_map, List.append_assoc]
  congr 2
  · congr 1
    exact List.map_congr_left fun t _ => (entry_tablePart t).symm

section

variable {front back : List Part} {own : Option Settings} {tables : List (String × Settings)}

theorem mem_nested (hplain : ∀ part ∈ front ++ back, IsPlain part) {part : Part} (hm : part ∈ nested front own tables back) :
    IsPlain part ∨ (∃ settings, part = .own settings) ∨ ∃ t ∈ tables, part = tablePart t := by
  simp only [nested, List.mem_append, List.mem_map] at hm
  rcases hm with (hm | ⟨settings, _, rfl⟩ | ⟨t, ht, rfl⟩) | hm
  · exact .inl (hplain _ (List.mem_append_left _ hm))
  · exact .inr (.inl ⟨settings, rfl⟩)
  · exact .inr (.inr ⟨t, ht, rfl⟩)
  · exact .inl (hplain _ (List.mem_append_right _ hm))

theorem database_nested (hplain : ∀ part ∈ front ++ back, IsPlain part) :
    Part.database (nested front own tables back) = ⟨own.getD [], tables.filter ('\n' ∉ ·.1.toList)⟩ := by
  have hnone : ∀ {α : Type} (f : Part → Option α), (∀ name contents, f (.plain name contents) = none) →
      front.filterMap f = [] ∧ back.filterMap f = [] := by
    intro α f hf
    have hall : ∀ part ∈ front ++ back, f part = none := by
      intro part hm
      obtain ⟨name, contents, rfl, _⟩ := hplain part hm
      exact hf name contents
    rw [List.forall_mem_append] at hall
    exact ⟨List.filterMap_eq_nil_iff.mpr hall.1, List.filterMap_eq_nil_iff.mpr hall.2⟩
  obtain ⟨hfo, hbo⟩ := hnone Part.own? fun _ _ => rfl
  obtain ⟨hfs, hbs⟩ := hnone Part.sub? fun _ _ => rfl
  have hown : tables.filterMap (Part.own? ∘ tablePart) = [] := by
    refine List.filterMap_eq_nil_iff.mpr fun t _ => ?_
    rw [Function.comp_apply, tablePart]
    split <;> rfl
  have hsub : tables.filterMap (Part.sub? ∘ tablePart) = tables.filter ('\n' ∉ ·.1.toList) := by
    rw [← List.filterMap_eq_filter]
    refine List.filterMap_congr fun t _ => ?_
    rw [Function.comp_apply, tablePart]
    by_cases hn : '\n' ∈ t.1.toList <;> simp [hn, Part.sub?, Option.guard]
  simp only [Part.database, nested, List.filterMap_append, List.filterMap_map, hfo, hbo, hfs, hbs, hown, hsub]
  cases own <;> simp [Part.own?, Part.sub?]

theorem regular_nested (hplain : ∀ part ∈ front ++ back, IsPlain part)
    (hn : (Settings.keys ((nested front own tables back).map Part.entry)).Nodup)
    (hg : Groupable isHeading ((nested front own tables back).map Part.entry)) :
    Regular (nested front own tables back) := by
  refine regular_of_groupable hn hg ?_ ?_
  · intro name settings hm
    obtain ⟨_, _, h, _⟩ | ⟨_, h⟩ | ⟨t, _, h⟩ := mem_nested hplain hm
    · cases h
    · cases h
    · rw [tablePart] at h
      split at h
      · cases h
      · next ht =>
        cases h
        exact ht
  · intro name contents hm
    obtain ⟨_, _, h, hname⟩ | ⟨_, h⟩ | ⟨t, _, h⟩ := mem_nested hplain hm
    · cases h
      exact hname
    · cases h
    · rw [tablePart] at h
      split at h
      · next ht =>
        cases h
        exact Bool.eq_false_iff.mpr fun hk => isHeading_label_iff.mp hk ht
      · cases h

end

theorem isExtra_tableEntry {t : String × Settings} (h : '\n' ∈ t.1.toList) :
    Config.isExtra (tableEntry "database" t) = true := by
  have hk : isHeading (label (some t.1)) = false := Bool.eq_false_iff.mpr fun hk => isHeading_label_iff.mp hk h
  have hblank : ∀ name ∈ Config.resolvedHeadings, ' ' ∉ name.toList := by decide
  have hr : label (some t.1) ∉ Config.resolvedHeadings := by
    intro hm
    refine hblank _ hm ?_
    rw [toList_label]
    simp
  simp only [Config.isExtra, tableEntry, Bool.and_eq_true, Bool.not_eq_true', List.contains_eq_mem, decide_eq_false_iff_not]
  exact ⟨hr, hk⟩

/-- The tables in the database section of a file are its subsections, in order, each resolved as a profile under its
name, but for those whose names have a line feed. They are kept as they are, under a label that nothing resolves. -/
theorem flatten_database [Pattern.Compiler] {before after settings : Settings} {host : Host} {c : Config}
    (hothers : ∀ e ∈ before ++ after, ∀ key, e.1 = .text key → isHeading key = false)
    (hflat : flatten path (before ++ (.text "database", .map settings) :: after) = .ok document)
    (hc : (Config.ofDocument document host).result = .ok c) :
    ∃ tables, TablesOf settings tables ∧
      c.profiles.names = (tables.map Prod.fst).filter ('\n' ∉ ·.toList) ∧
      ∀ t ∈ tables,
        if '\n' ∈ t.1.toList then c.extra.get? (label (some t.1)) = some (.map (freezeEntries t.2))
        else ∃ profile, Accepts ((scalars settings).overlay t.2) profile ∧
          c.database.get? t.1 = some (.map (freezeEntries profile)) := by
  obtain ⟨front, own, tables, back, hown, hnames, hplain, rfl⟩ := exists_nested_of_flatten hothers hflat
  obtain ⟨_, hn, hg⟩ := Config.groupable_of_ofDocument hc
  have hregular := regular_nested hplain hn hg
  obtain ⟨_, _, databases, _, _, _, hi, hr, rfl⟩ := Config.ofDocument_eq_ok_iff.mp hc
  obtain ⟨_, rfl, _⟩ := Config.index_eq_self hi hr.databases
  obtain ⟨hprofiles, hvalid, _⟩ := (resolve_parts_eq_ok_iff hregular).mp hr.databases
  obtain ⟨hsubs, hall⟩ := exists_of_resolve_cascade hprofiles hvalid
  have honce : databases.profiles.names.Nodup := hsubs ▸ hregular.subs
  rw [database_nested hplain, hown] at hsubs hall
  refine ⟨tables, hnames, ?_, fun t ht => ?_⟩
  · rw [Config.assemble, Resolved.names_map, hsubs, List.filter_map]
    rfl
  split
  · next hline =>
    have hm : tableEntry "database" t ∈ ((nested front own tables back).map Part.entry).filter Config.isExtra := by
      refine List.mem_filter.mpr ⟨List.mem_map.mpr ⟨tablePart t, ?_, entry_tablePart t⟩, isExtra_tableEntry hline⟩
      exact List.mem_append_left _ (List.mem_append_right _ (List.mem_append_right _ (List.mem_map_of_mem ht)))
    have hget : Settings.get? (((nested front own tables back).map Part.entry).filter Config.isExtra)
        (label (some t.1)) = some (.map t.2) := Settings.get?_of_mem ((List.filter_sublist.map _).nodup hn) hm
    rw [Config.assemble, get?_freezeEntries, hget]
    rfl
  · next hline =>
    obtain ⟨profile, ha, hm⟩ := hall t (List.mem_filter.mpr ⟨ht, by simpa using hline⟩)
    refine ⟨profile, ha, get?_toSettings ?_ ?_⟩
    · rwa [Config.assemble, Resolved.names_map]
    · rw [Config.assemble, Resolved.toList_map]
      exact List.mem_map.mpr ⟨_, hm, rfl⟩

/-- The only database has a line feed in its name, so that none of the configuration has a name. -/
theorem flatten_line_feed : ∃ document c,
    flatten (.ofString "a.toml") [(.text "database", .map [(.text "subname", .text "//localhost/db"),
      (.text "east\nwest", .map [(.text "subname", .text "//localhost/east")])])] = .ok document ∧
    (Config.ofDocument document ⟨4, 205000⟩).result = .ok c ∧ c.profiles.names ≠ ["east\nwest"] := by
  have hresolved : (Config.ofDocument [(.text "database", .map [(.text "subname", .text "//localhost/db")]),
      (.text "database \"east\nwest\"", .map [(.text "subname", .text "//localhost/east")])] ⟨4, 205000⟩).result.succeedsWith
        (·.profiles.names ≠ ["east\nwest"]) = true := by
    decide +kernel
  obtain ⟨c, hc, hnames⟩ := Except.succeedsWith_iff.mp hresolved
  exact ⟨_, c, rfl, hc, of_decide_eq_true hnames⟩

/-- One of two databases has a line feed in its name, and the settings of the section itself go to the other. -/
theorem flatten_database_shared : ∃ document c tables,
    flatten (.ofString "a.toml") ([(.text "nrepl", .map [])] ++ (.text "database", .map [(.text "user", .text "db"),
      (.text "east", .map [(.text "subname", .text "//east")]), (.text "a\nb", .map [(.text "subname", .text "//b")])]) :: [])
      = .ok document ∧
    (Config.ofDocument document ⟨4, 8192⟩).result = .ok c ∧
    TablesOf [(.text "user", .text "db"), (.text "east", .map [(.text "subname", .text "//east")]),
      (.text "a\nb", .map [(.text "subname", .text "//b")])] tables ∧
    c.profiles.names = (tables.map Prod.fst).filter ('\n' ∉ ·.toList) ∧
    ∀ t ∈ tables,
      if '\n' ∈ t.1.toList then c.extra.get? (label (some t.1)) = some (.map (freezeEntries t.2))
      else ∃ profile, Accepts (Settings.overlay [(.text "user", .text "db")] t.2) profile ∧
        c.database.get? t.1 = some (.map (freezeEntries profile)) := by
  let document : Document := [(.text "nrepl", .map []), (.text "database", .map [(.text "user", .text "db")]),
    (.text "database \"east\"", .map [(.text "subname", .text "//east")]),
    (.text "database \"a\nb\"", .map [(.text "subname", .text "//b")])]
  have hresolved : (Config.ofDocument document ⟨4, 8192⟩).result.succeedsWith (fun _ => true) = true := by
    decide +kernel
  obtain ⟨c, hc, _⟩ := Except.succeedsWith_iff.mp hresolved
  have hothers : ∀ e ∈ [(Value.text "nrepl", Value.map [])] ++ [], ∀ key, e.1 = .text key → isHeading key = false := by
    simp only [List.append_nil, List.forall_mem_cons, List.not_mem_nil, false_imp_iff, implies_true, and_true]
    rintro key ⟨⟩
    decide
  have hflat : flatten (.ofString "a.toml") ([(.text "nrepl", .map [])] ++ (.text "database", .map [(.text "user", .text "db"),
      (.text "east", .map [(.text "subname", .text "//east")]), (.text "a\nb", .map [(.text "subname", .text "//b")])]) :: [])
      = .ok document := rfl
  obtain ⟨tables, htables⟩ := flatten_database hothers hflat hc
  exact ⟨document, c, tables, hflat, hc, htables⟩

end Stanza.Load
