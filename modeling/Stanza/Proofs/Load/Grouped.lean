import Mathlib.Data.List.Duplicate
import Stanza.Proofs.Header.Canonical
import Stanza.Proofs.Load.Nested

/-! # Tables grouped again

A file's section with tables in it becomes one entry for its own settings and one entry for each table. Grouping reads
the names of the tables from the labels of the entries, so that it gives back the section with its tables in order, and
refuses tables that are called the same.
-/
namespace Stanza.Load

open Section

variable {name : String} {settings : Settings} {tables : List (String × Settings)}

def ownSettings (settings : Settings) (tables : List (String × Settings)) : Option Settings :=
  if (scalars settings).isEmpty && !tables.isEmpty then none else some (scalars settings)

theorem getD_ownSettings (settings : Settings) (tables : List (String × Settings)) :
    (ownSettings settings tables).getD [] = scalars settings := by
  rw [ownSettings]
  split
  · next h => exact (List.isEmpty_iff.mp (Bool.and_eq_true_iff.mp h).1).symm
  · rfl

theorem sectionEntries_of_tablesOf (name : String) (h : TablesOf settings tables) :
    sectionEntries name settings = .ok (((ownSettings settings tables).toList.map fun s => (.text name, .map s))
      ++ tables.map (tableEntry name)) := by
  have hempty : (settings.filter (·.2.isMap)).isEmpty = tables.isEmpty := by
    rw [Bool.eq_iff_iff, List.isEmpty_iff_length_eq_zero, List.isEmpty_iff_length_eq_zero, h.length_eq]
  rw [sectionEntries]
  refine Except.bind_eq_ok_iff.mpr ⟨tables.map (tableEntry name), ?_, ?_⟩
  · rw [Except.mapM_eq_ok_iff, List.forall₂_map_right_iff]
    refine h.imp ?_
    rintro ⟨key, contents⟩ t ⟨hkey, rfl⟩
    dsimp only at hkey ⊢
    rw [hkey]
    rfl
  · rw [hempty, ownSettings]
    change Except.ok _ = _
    congr 2
    split <;> rfl

/-! ## Entry by entry -/

theorem add_of_isHeader {isHeader : Value → Except Fault Bool} {key : String} (hm : isHeader (.text key) = .ok true)
    (g : Grouping) (value : Value) :
    Grouping.add isHeader g (.text key, value) = (g.addSection key value).mapError .config := by
  rw [Grouping.add, hm]
  rfl

/-- What has been grouped after the settings of a section itself, if they are there, and some of its tables. -/
def grouping (name : String) (own : Option Settings) (tables : List (String × Settings)) : Grouping where
  tree :=
    if own.isNone && tables.isEmpty then []
    else [(.text name, .grouped { settings := own.getD [], subsections := tables })]
  seen := own.toList.map fun _ => name

variable {own : Option Settings} {isHeader : Value → Except Fault Bool}

theorem node_grouping (name : String) (own : Option Settings) (tables : List (String × Settings)) :
    (grouping name own tables).tree.node name = { settings := own.getD [], subsections := tables } := by
  unfold grouping
  dsimp only
  split
  · next h =>
    obtain ⟨hown, htables⟩ := Bool.and_eq_true_iff.mp h
    rw [Option.isNone_iff_eq_none.mp hown, List.isEmpty_iff.mp htables]
    rfl
  · rw [Section.Tree.node, Tree.find?_cons, if_pos (Value.same_text_iff.mpr rfl)]

theorem insert_grouping (name : String) (own : Option Settings) (tables : List (String × Settings)) (entry : Entry) :
    (grouping name own tables).tree.insert (.text name) entry = [(.text name, entry)] := by
  unfold grouping
  dsimp only
  split
  · rfl
  · rw [Tree.insert_cons, if_pos (Value.same_text_iff.mpr rfl)]

theorem withSubsection_grouping (t : String × Settings) :
    (grouping name own tables).withSubsection name t.1 t.2 = grouping name own (tables ++ [t]) := by
  have hne : (own.isNone && (tables ++ [t]).isEmpty) = false := by simp
  rw [Grouping.withSubsection, node_grouping, insert_grouping]
  simp only [grouping, hne]
  rfl

theorem withSettings_grouping (name : String) (own : Settings) :
    (grouping name none []).withSettings name own = grouping name (some own) [] := by
  rw [Grouping.withSettings, node_grouping, insert_grouping]
  rfl

theorem hasSubsection_grouping (sub : String) :
    ((grouping name own tables).tree.node name).hasSubsection sub = decide (sub ∈ tables.map Prod.fst) := by
  rw [node_grouping, hasSubsection, Bool.eq_iff_iff, List.any_eq_true, decide_eq_true_iff, List.mem_map]
  simp only [beq_iff_eq]

/-- The settings of the section itself come first, if they come at all. -/
theorem foldlM_ownEntry (hc : Header.Clean { name }) (own : Option Settings)
    (hm : ∀ e ∈ own.toList.map fun s => (Value.text name, Value.map s), isHeader e.1 = .ok true) :
    (own.toList.map fun s => (Value.text name, Value.map s)).foldlM (Grouping.add isHeader) {} =
      .ok (grouping name own []) := by
  cases own with
  | none => rfl
  | some own =>
    have hp := Header.parse_format hc
    have hadd : (grouping name none []).addSection name (.map own) = .ok (grouping name (some own) []) :=
      Grouping.addSection_eq_ok_iff.mpr ⟨{ name }, hp, own, rfl, rfl, rfl, withSettings_grouping name own⟩
    change Grouping.add isHeader (grouping name none []) (.text name, .map own) >>= pure = _
    rw [bind_pure, add_of_isHeader (hm _ (List.mem_singleton_self _)), hadd]
    rfl

/-- A table is added, unless there is one that is called the same. -/
theorem add_tableEntry {t : String × Settings} (hc : Header.Clean { name, subsection := some t.1 })
    (hm : isHeader (tableEntry name t).1 = .ok true) :
    Grouping.add isHeader (grouping name own tables) (tableEntry name t) =
      if t.1 ∈ tables.map Prod.fst then .error (.config (.repeatedSubsection (Header.label ⟨name, some t.1⟩)))
      else .ok (grouping name own (tables ++ [t])) := by
  have hp : Header.parse ("[" ++ Header.label ⟨name, some t.1⟩ ++ "]") = .ok ⟨name, some t.1⟩ := Header.parse_format hc
  rw [tableEntry, add_of_isHeader hm]
  split
  · next ht =>
    have hadd : (grouping name own tables).addSection (Header.label ⟨name, some t.1⟩) (.map t.2) =
        .error (.repeatedSubsection (Header.label ⟨name, some t.1⟩)) := by
      refine Except.bind_eq_error_iff.mpr (.inr ⟨_, hp, Except.bind_eq_error_iff.mpr (.inr ⟨t.2, rfl, ?_⟩)⟩)
      dsimp only
      rw [hasSubsection_grouping, if_pos (decide_eq_true ht)]
      rfl
    rw [hadd]
    rfl
  · next ht =>
    have hadd : (grouping name own tables).addSection (Header.label ⟨name, some t.1⟩) (.map t.2) =
        .ok (grouping name own (tables ++ [t])) := by
      refine Grouping.addSection_eq_ok_iff.mpr ⟨_, hp, t.2, rfl, ?_, withSubsection_grouping t⟩
      rw [hasSubsection_grouping, decide_eq_false ht]
    rw [hadd]
    rfl

/-- All tables one after the other. Those before have different names. -/
theorem foldlM_tableEntry (own : Option Settings) (tables rest : List (String × Settings))
    (hn : (tables.map Prod.fst).Nodup) (hc : ∀ t ∈ rest, Header.Clean { name, subsection := some t.1 })
    (hm : ∀ t ∈ rest, isHeader (tableEntry name t).1 = .ok true) :
    (((tables ++ rest).map Prod.fst).Nodup → (rest.map (tableEntry name)).foldlM (Grouping.add isHeader)
      (grouping name own tables) = .ok (grouping name own (tables ++ rest))) ∧
    (¬ ((tables ++ rest).map Prod.fst).Nodup → ∃ sub, List.Duplicate sub ((tables ++ rest).map Prod.fst) ∧
      (rest.map (tableEntry name)).foldlM (Grouping.add isHeader) (grouping name own tables) =
        .error (.config (.repeatedSubsection (Header.label ⟨name, some sub⟩)))) := by
  induction rest generalizing tables with
  | nil =>
    rw [List.append_nil]
    exact ⟨fun _ => rfl, fun h => absurd hn h⟩
  | cons t rest ih =>
    obtain ⟨hct, hc⟩ := List.forall_mem_cons.mp hc
    obtain ⟨hmt, hm⟩ := List.forall_mem_cons.mp hm
    rw [List.map_cons, List.foldlM_cons, add_tableEntry hct hmt]
    by_cases ht : t.1 ∈ tables.map Prod.fst
    · have hd : List.Duplicate t.1 ((tables ++ t :: rest).map Prod.fst) := by
        rw [List.duplicate_iff_two_le_count, List.map_append, List.count_append, List.map_cons, List.count_cons_self]
        have := List.count_pos_iff.mpr ht
        omega
      rw [if_pos ht]
      exact ⟨fun h => absurd h hd.not_nodup, fun _ => ⟨t.1, hd, rfl⟩⟩
    · have hnext : ((tables ++ [t]).map Prod.fst).Nodup := by
        rw [List.map_append, List.map_singleton, List.nodup_append]
        refine ⟨hn, List.nodup_singleton _, ?_⟩
        rintro a ha b hb rfl
        exact ht (List.mem_singleton.mp hb ▸ ha)
      rw [if_neg ht, List.append_cons]
      exact ih _ hnext hc hm

/-! ## The whole section -/

theorem clean_tableEntry (hne : name ≠ "") (hname : ∀ c ∈ name.toList, c.isAlphanum = true ∨ c = '-')
    {t : String × Settings}
    (ht : ∀ c ∈ t.1.toList, ¬(c.toNat ≤ 0x8 ∨ (0xe ≤ c.toNat ∧ c.toNat ≤ 0x1f) ∨ c.toNat = 0x7f)) :
    Header.Clean { name, subsection := some t.1 } := by
  refine Header.clean_iff.mpr ⟨⟨hne, hname⟩, ?_⟩
  rintro _ ⟨⟩
  exact ht

/-- A section of a file is grouped as its own settings and its tables by the texts of their names, all in order. If two
names have the same text, grouping fails and merges nothing. The name of a section is not empty, and the names of the
tables have no control characters that headers forbid; anything else can be in them. -/
theorem coalesce_flatten (path : Path) (hne : name ≠ "") (hname : ∀ c ∈ name.toList, c.isAlphanum = true ∨ c = '-')
    (htables : TablesOf settings tables)
    (hclean : ∀ t ∈ tables, ∀ c ∈ t.1.toList,
      ¬(c.toNat ≤ 0x8 ∨ (0xe ≤ c.toNat ∧ c.toNat ≤ 0x1f) ∨ c.toNat = 0x7f)) :
    ∃ document, flatten path [(.text name, .map settings)] = .ok document ∧
      ∀ isHeader : Value → Except Fault Bool, (∀ e ∈ document, isHeader e.1 = .ok true) →
        ((tables.map Prod.fst).Nodup → coalesce isHeader document =
          .ok [(.text name, .grouped { settings := scalars settings, subsections := tables })]) ∧
        (¬ (tables.map Prod.fst).Nodup → ∃ e : ConfigError, coalesce isHeader document = .error (.config e) ∧
          e.kind = .layout ∧ ∃ sub, List.Duplicate sub (tables.map Prod.fst) ∧
            e = .repeatedSubsection (Header.label { name, subsection := some sub })) := by
  refine ⟨_, (flatten_section name settings).trans (sectionEntries_of_tablesOf name htables), ?_⟩
  intro isHeader hm
  obtain ⟨hown, htable⟩ := List.forall_mem_append.mp hm
  have hfold := foldlM_ownEntry (Header.clean_iff.mpr ⟨⟨hne, hname⟩, nofun⟩) _ hown
  obtain ⟨hok, herror⟩ := foldlM_tableEntry (ownSettings settings tables) [] tables List.nodup_nil
    (fun t ht => clean_tableEntry hne hname (hclean t ht)) (fun t ht => htable _ (List.mem_map_of_mem ht))
  rw [List.nil_append] at hok herror
  rw [coalesce, List.foldlM_append, hfold]
  constructor
  · intro hn
    refine Except.map_eq_ok_iff.mpr ⟨_, hok hn, ?_⟩
    have hsome : ((ownSettings settings tables).isNone && tables.isEmpty) = false := by
      cases tables <;> simp [ownSettings]
    simp only [grouping, hsome, getD_ownSettings]
    rfl
  · intro hn
    obtain ⟨sub, hd, he⟩ := herror hn
    exact ⟨_, Except.map_eq_error_iff.mpr he, rfl, sub, hd, rfl⟩

/-- Names with a quote, a backslash, brackets and a line feed and one that is a number, and a number beside its text. -/
theorem coalesce_flatten_names :
    (∃ document, flatten (.ofString "/f.toml") [(.text "a-1", .map
        [(.text "k", .null), (.text "\"\\[]\n ", .map [(.text "k", .null)]), (.int 1, .map [])])] = .ok document ∧
      coalesce (fun _ => .ok true) document = .ok [(.text "a-1", .grouped
        { settings := [(.text "k", .null)], subsections := [("\"\\[]\n ", [(.text "k", .null)]), ("1", [])] })]) ∧
    ∃ document, flatten (.ofString "/f.toml") [(.text "a-1", .map [(.int 1, .map []), (.text "1", .map [])])] =
        .ok document ∧
      coalesce (fun _ => .ok true) document = .error (.config (.repeatedSubsection "a-1 \"1\"")) := by
  have hall : "a-1".toList.all (fun c => c.isAlphanum || c == '-') = true := by decide
  have hname : ∀ c ∈ "a-1".toList, c.isAlphanum = true ∨ c = '-' :=
    fun c hc => by simpa using List.all_eq_true.mp hall c hc
  have hclean : ∀ s : String, s.toList.all (!Header.isForbidden ·) = true → ∀ c ∈ s.toList,
      ¬(c.toNat ≤ 0x8 ∨ (0xe ≤ c.toNat ∧ c.toNat ≤ 0x1f) ∨ c.toNat = 0x7f) :=
    fun s hs c hc => Header.isForbidden_eq_false_iff.mp (by simpa using List.all_eq_true.mp hs c hc)
  have hone : (Value.int 1).display = .ok "1" := by cbv
  have htables : TablesOf [(.text "k", .null), (.text "\"\\[]\n ", .map [(.text "k", .null)]), (.int 1, .map [])]
      [("\"\\[]\n ", [(.text "k", .null)]), ("1", [])] := .cons ⟨rfl, rfl⟩ (.cons ⟨hone, rfl⟩ .nil)
  have hsame : TablesOf [(.int 1, .map []), (.text "1", .map [])] [("1", []), ("1", [])] :=
    .cons ⟨hone, rfl⟩ (.cons ⟨rfl, rfl⟩ .nil)
  constructor
  · obtain ⟨document, hflat, hall⟩ := coalesce_flatten (.ofString "/f.toml") (by decide) hname htables
      (List.forall_mem_cons.mpr ⟨hclean _ (by decide), List.forall_mem_singleton.mpr (hclean _ (by decide))⟩)
    exact ⟨document, hflat, (hall _ fun _ _ => rfl).1 (by decide)⟩
  · obtain ⟨document, hflat, hall⟩ := coalesce_flatten (.ofString "/f.toml") (by decide) hname hsame
      (List.forall_mem_cons.mpr ⟨hclean _ (by decide), List.forall_mem_singleton.mpr (hclean _ (by decide))⟩)
    obtain ⟨e, he, _, sub, hd, rfl⟩ := (hall (fun _ => .ok true) fun _ _ => rfl).2 (by decide)
    obtain rfl : sub = "1" := by simpa using hd.mem
    exact ⟨document, hflat, he⟩

end Stanza.Load
