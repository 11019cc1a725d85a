import Stanza.Proofs.Config.Resolution
import Stanza.Proofs.Load.File
import Stanza.Proofs.Section.Gathered

/-! # Several files as one document

Files are put together entry by entry, and every section remembers its file. A section that comes from two files is
refused there; one that a file gives twice, or that is given twice by a file listed twice, is left to resolution, which
has no configuration for it.
-/
namespace Stanza.Load

variable {tree : Tree}

/-! ## Single files -/

theorem textKeys_of_iniDocument {path : Path} {bytes : List UInt8} {document : Document}
    (h : iniDocument path bytes = .ok document) : Settings.TextKeys document := by
  simp only [iniDocument] at h
  obtain ⟨reader, _, h⟩ := Except.bind_eq_ok_iff.mp h
  split at h
  · cases h
  · obtain ⟨sections, _, h⟩ := Except.bind_eq_ok_iff.mp h
    cases h
    intro k hk
    rw [Settings.keys, List.map_map, List.mem_map] at hk
    obtain ⟨e, _, rfl⟩ := hk
    exact ⟨e.1, rfl⟩

def TablesOf (settings : Settings) (tables : List (String × Settings)) : Prop :=
  List.Forall₂ (fun e t => e.1.display = .ok t.1 ∧ e.2 = .map t.2) (settings.filter (·.2.isMap)) tables

def tableEntry (name : String) (t : String × Settings) : Value × Value :=
  (.text (Header.label { name, subsection := some t.1 }), .map t.2)

theorem exists_tables_of_mapM {name : String} {settings : Settings} {entries : Document}
    (h : ((settings.filter (·.2.isMap)).mapM fun (key, contents) => do
      let header : Header := { name, subsection := some (← digits key.display) }
      return (Value.text header.label, contents) : Except Fault Document) = .ok entries) :
    ∃ tables, TablesOf settings tables ∧ entries = tables.map (tableEntry name) := by
  have hentries := (Except.mapM_eq_ok_iff.mp h).flip.imp_of_mem (S := fun d e =>
    ∃ t : String × Settings, (e.1.display = .ok t.1 ∧ e.2 = .map t.2) ∧ tableEntry name t = d) ?_
  · obtain ⟨tables, hnames, htables⟩ := hentries.flip.exists_between
    refine ⟨tables, hnames, ?_⟩
    rw [eq_comm, ← List.forall₂_eq_eq_eq, List.forall₂_map_left_iff]
    exact htables
  · rintro d ⟨key, contents⟩ he hd
    obtain ⟨sub, hsub, hd⟩ := Except.bind_eq_ok_iff.mp hd
    cases hd
    cases contents with
    | map entries => exact ⟨(sub, entries), ⟨Except.mapError_eq_ok_iff.mp hsub, rfl⟩, rfl⟩
    | _ => cases (List.mem_filter.mp he).2

/-- If the settings of the section itself are left out, there are none. -/
theorem sectionEntries_eq_ok {name : String} {settings : Settings} {document : Document}
    (h : sectionEntries name settings = .ok document) :
    ∃ own tables, Option.getD own [] = Section.scalars settings ∧ TablesOf settings tables ∧
      document = (own.toList.map fun s => (.text name, .map s)) ++ tables.map (tableEntry name) := by
  simp only [sectionEntries] at h
  obtain ⟨entries, hentries, h⟩ := Except.bind_eq_ok_iff.mp h
  obtain ⟨tables, hnames, rfl⟩ := exists_tables_of_mapM hentries
  cases h
  cases hout : (Section.scalars settings).isEmpty && !(settings.filter (·.2.isMap)).isEmpty with
  | true =>
    have hnil := List.isEmpty_iff.mp (Bool.and_eq_true_iff.mp hout).1
    exact ⟨none, tables, hnil.symm, hnames, rfl⟩
  | false => exact ⟨some (Section.scalars settings), tables, rfl, hnames, rfl⟩

/-- Every entry is called like a section of the file or like a table in it. -/
theorem exists_header_of_flatten {path : Path} {root : Settings} {document : Document}
    (h : flatten path root = .ok document) {e : Value × Value} (he : e ∈ document) :
    ∃ header : Header, .text header.name ∈ Settings.keys root ∧ e.1 = .text header.label := by
  simp only [flatten] at h
  obtain ⟨parts, hparts, h⟩ := Except.bind_eq_ok_iff.mp h
  cases h
  obtain ⟨part, hpart, he⟩ := List.mem_flatten.mp he
  obtain ⟨⟨key, value⟩, hm, hentry⟩ := (Except.mapM_eq_ok_iff.mp hparts).exists_of_mem_right hpart
  have hkey : key ∈ Settings.keys root := List.mem_map_of_mem hm
  dsimp only at hentry
  split at hentry
  · next name settings =>
    obtain ⟨own, tables, _, _, rfl⟩ := sectionEntries_eq_ok hentry
    rcases List.mem_append.mp he with he | he
    · obtain ⟨_, _, rfl⟩ := List.mem_map.mp he
      exact ⟨{ name }, hkey, rfl⟩
    · obtain ⟨t, _, rfl⟩ := List.mem_map.mp he
      exact ⟨{ name, subsection := some t.1 }, hkey, rfl⟩
  · next name _ =>
    cases hentry
    cases List.mem_singleton.mp he
    exact ⟨{ name }, hkey, rfl⟩
  · obtain ⟨_, _, hentry⟩ := Except.bind_eq_ok_iff.mp hentry
    cases hentry

theorem textKeys_of_flatten {path : Path} {root : Settings} {document : Document}
    (h : flatten path root = .ok document) : Settings.TextKeys document := by
  intro k hk
  obtain ⟨e, he, rfl⟩ := List.mem_map.mp hk
  obtain ⟨header, _, hlabel⟩ := exists_header_of_flatten h he
  exact ⟨_, hlabel⟩

theorem textKeys_of_document [Yaml.Loader] {path : Path} {bytes : List UInt8} {format : FileFormat} {d : Document}
    (h : document path bytes format = .ok d) : Settings.TextKeys d := by
  cases format with
  | ini => exact textKeys_of_iniDocument (Except.mapError_eq_ok_iff.mp h)
  | toml | yaml =>
    obtain ⟨_, _, h⟩ := Except.bind_eq_ok_iff.mp h
    exact textKeys_of_flatten h

/-- Whatever its format, a file names its sections by texts. -/
theorem textKeys_of_file [Yaml.Loader] {path : Path} {d : Document} (h : file tree path = .ok d) : Settings.TextKeys d := by
  obtain ⟨_, _, _, h⟩ := exists_document_of_file h
  exact textKeys_of_document h

/-! ## Entry by entry -/

theorem Merged.add_of_owner {m : Merged} {path : Path} {name : String}
    (h : ∀ owner, m.owners.lookup name = some owner → owner = path) (value : Value) : m.add path (.text name, value) =
      .ok { document := m.document ++ [(.text name, value)], owners := (name, path) :: m.owners } := by
  simp only [Merged.add]
  cases hl : m.owners.lookup name with
  | none => rfl
  | some owner =>
    rw [h owner hl]
    simp only [ne_eq, not_true_eq_false, if_false]
    rfl

theorem Merged.add_of_ne {m : Merged} {path owner : Path} {name : String} (hl : m.owners.lookup name = some owner)
    (hn : owner ≠ path) (value : Value) : m.add path (.text name, value) = .error (.definedTwice name owner path) := by
  simp only [Merged.add, hl, if_pos hn]
  rfl

/-- No section comes from two paths. -/
def Disjoint (entries : List (Path × (Value × Value))) : Prop :=
  ∀ e ∈ entries, ∀ f ∈ entries, e.2.1 = f.2.1 → e.1 = f.1

structure Owned (entries : List (Path × (Value × Value))) (m : Merged) : Prop where
  document : m.document = entries.map Prod.snd
  owner : ∀ name path, m.owners.lookup name = some path → ∃ e ∈ entries, e.2.1 = .text name ∧ e.1 = path
  known : ∀ e ∈ entries, ∀ name, e.2.1 = .text name → m.owners.lookup name = some e.1

variable {entries : List (Path × (Value × Value))} {m : Merged}

theorem Disjoint.of_append {e : Path × (Value × Value)} (h : Disjoint (entries ++ [e])) : Disjoint entries :=
  fun a ha b hb => h a (List.mem_append_left _ ha) b (List.mem_append_left _ hb)

theorem Owned.lookup_of_disjoint (ho : Owned entries m) {path owner : Path} {name : String} {value : Value}
    (hd : Disjoint (entries ++ [(path, .text name, value)])) (h : m.owners.lookup name = some owner) : owner = path := by
  obtain ⟨e, he, hname, rfl⟩ := ho.owner name owner h
  exact hd e (List.mem_append_left _ he) (path, .text name, value) (by simp) hname

/-- The next entry is added, unless its section has come from another path. -/
theorem Owned.add (ho : Owned entries m) (path : Path) (name : String) (value : Value)
    (h : ∀ owner, m.owners.lookup name = some owner → owner = path) :
    ∃ out, m.add path (.text name, value) = .ok out ∧ Owned (entries ++ [(path, .text name, value)]) out := by
  refine ⟨_, Merged.add_of_owner h value, ?_, ?_, ?_⟩
  · simp [ho.document]
  · intro other owner hl
    rw [List.lookup_cons] at hl
    by_cases hn : other = name
    · subst hn
      rw [beq_self_eq_true] at hl
      exact ⟨(path, .text other, value), by simp, rfl, Option.some.inj hl⟩
    · rw [beq_false_of_ne hn] at hl
      obtain ⟨e, he, hp⟩ := ho.owner other owner hl
      exact ⟨e, List.mem_append_left _ he, hp⟩
  · intro e he other hother
    rw [List.lookup_cons]
    by_cases hn : other = name
    · subst hn
      rw [beq_self_eq_true]
      rcases List.mem_append.mp he with he | he
      · rw [h e.1 (ho.known e he other hother)]
      · rw [List.mem_singleton.mp he]
    · rw [beq_false_of_ne hn]
      rcases List.mem_append.mp he with he | he
      · exact ho.known e he other hother
      · rw [List.mem_singleton.mp he] at hother
        exact absurd (Value.text.inj hother).symm hn

theorem Owned.disjoint (ho : Owned entries m) (ht : Settings.TextKeys (entries.map Prod.snd)) : Disjoint entries := by
  intro e he f hf heq
  obtain ⟨name, hname⟩ := ht e.2.1 (List.mem_map_of_mem (List.mem_map_of_mem he))
  have hfound := (ho.known e he name hname).symm.trans (ho.known f hf name (heq ▸ hname))
  exact Option.some.inj hfound

/-- All entries one after the other. -/
theorem foldlM_add (ht : Settings.TextKeys (entries.map Prod.snd)) :
    (Disjoint entries → ∃ m, entries.foldlM (fun m e => m.add e.1 e.2) ({} : Merged) = .ok m ∧ Owned entries m) ∧
    (¬ Disjoint entries → ∃ name first second,
      entries.foldlM (fun m e => m.add e.1 e.2) ({} : Merged) = .error (.definedTwice name first second)) := by
  induction entries using List.reverseRecOn with
  | nil =>
    refine ⟨fun _ => ⟨{}, rfl, rfl, ?_, ?_⟩, fun h => absurd (fun e he => absurd he List.not_mem_nil) h⟩
    · exact fun _ _ h => nomatch h
    · exact fun e he => absurd he List.not_mem_nil
  | append_singleton entries e ih =>
    rcases e with ⟨path, key, value⟩
    obtain ⟨name, rfl⟩ := ht key (by simp [Settings.keys])
    have htext : Settings.TextKeys (entries.map Prod.snd) := by
      refine fun k hk => ht k ?_
      rw [Settings.keys, List.map_append, List.map_append]
      exact List.mem_append_left _ hk
    obtain ⟨hok, herror⟩ := ih htext
    rw [List.foldlM_concat]
    by_cases hd : Disjoint entries
    · obtain ⟨m, hm, ho⟩ := hok hd
      rw [hm]
      constructor
      · exact fun hall => ho.add path name value fun owner hl => ho.lookup_of_disjoint hall hl
      · intro hn
        cases hl : m.owners.lookup name with
        | none =>
          obtain ⟨out, _, hout⟩ := ho.add path name value (by simp [hl])
          exact absurd (hout.disjoint ht) hn
        | some owner =>
          by_cases hp : owner = path
          · obtain ⟨out, _, hout⟩ := ho.add path name value (by simp [hl, hp])
            exact absurd (hout.disjoint ht) hn
          · exact ⟨name, owner, path, Merged.add_of_ne hl hp value⟩
    · obtain ⟨other, first, second, he⟩ := herror hd
      rw [he]
      exact ⟨fun hall => absurd hall.of_append hd, fun _ => ⟨other, first, second, rfl⟩⟩

/-! ## File by file -/

def tagged (paths : List Path) (documents : List Document) : List (Path × (Value × Value)) :=
  (paths.zip documents).flatMap fun f => f.2.map fun e => (f.1, e)

/-- A section that two documents from different paths give. -/
def Shared (paths : List Path) (documents : List Document) : Prop :=
  ∃ f ∈ paths.zip documents, ∃ g ∈ paths.zip documents, f.1 ≠ g.1 ∧ ∃ key ∈ Settings.keys f.2, key ∈ Settings.keys g.2

variable {paths : List Path} {documents : List Document}

theorem mem_tagged {e : Path × (Value × Value)} :
    e ∈ tagged paths documents ↔ ∃ f ∈ paths.zip documents, f.1 = e.1 ∧ e.2 ∈ f.2 := by
  simp only [tagged, List.mem_flatMap, List.mem_map]
  refine exists_congr fun f => and_congr_right fun _ => ?_
  constructor
  · rintro ⟨entry, hm, rfl⟩
    exact ⟨rfl, hm⟩
  · rintro ⟨hp, hm⟩
    exact ⟨e.2, hm, Prod.ext hp rfl⟩

theorem shared_iff : Shared paths documents ↔ ¬ Disjoint (tagged paths documents) := by
  simp only [Disjoint, not_forall, exists_prop, mem_tagged]
  constructor
  · rintro ⟨f, hf, g, hg, hne, key, hkf, hkg⟩
    obtain ⟨d, hd, rfl⟩ := List.mem_map.mp hkf
    obtain ⟨e, he, hk⟩ := List.mem_map.mp hkg
    exact ⟨(f.1, d), ⟨f, hf, rfl, hd⟩, (g.1, e), ⟨g, hg, rfl, he⟩, hk.symm, hne⟩
  · rintro ⟨⟨_, d⟩, ⟨f, hf, rfl, hd⟩, ⟨_, e⟩, ⟨g, hg, rfl, he⟩, hk, hne⟩
    exact ⟨f, hf, g, hg, hne, d.1, List.mem_map_of_mem hd, hk ▸ List.mem_map_of_mem he⟩

theorem foldlM_mapError (entries : List (Path × (Value × Value))) (m : Merged) :
    entries.foldlM (fun m e => (m.add e.1 e.2).mapError Fault.load) m
      = (entries.foldlM (fun (m : Merged) e => m.add e.1 e.2) m).mapError Fault.load := by
  induction entries generalizing m with
  | nil => rfl
  | cons e entries ih =>
    rw [List.foldlM_cons, List.foldlM_cons]
    cases m.add e.1 e.2 with
    | error flaw => rfl
    | ok out => exact ih out

section

variable [Yaml.Loader]

theorem map_snd_tagged (h : List.Forall₂ (fun path document => file tree path = .ok document) paths documents) :
    (tagged paths documents).map Prod.snd = documents.flatten := by
  induction h with
  | nil => rfl
  | @cons path document paths documents _ _ ih =>
    rw [tagged] at ih
    simp [tagged, ih]

theorem textKeys_tagged (h : List.Forall₂ (fun path document => file tree path = .ok document) paths documents) :
    Settings.TextKeys ((tagged paths documents).map Prod.snd) := by
  rw [map_snd_tagged h]
  intro k hk
  obtain ⟨e, he, rfl⟩ := List.mem_map.mp hk
  obtain ⟨document, hd, he⟩ := List.mem_flatten.mp he
  obtain ⟨_, _, hfile⟩ := h.exists_of_mem_right hd
  exact textKeys_of_file hfile _ (List.mem_map_of_mem he)

/-- The files are read one after the other, so that the loop over them is a loop over their entries. -/
theorem foldlM_files (h : List.Forall₂ (fun path document => file tree path = .ok document) paths documents)
    (m : Merged) : (paths.foldlM (fun (m : Merged) path => do
      (← file tree path).foldlM (fun m entry => (m.add path entry).mapError Fault.load) m) m : Except Fault Merged)
      = ((tagged paths documents).foldlM (fun (m : Merged) e => m.add e.1 e.2) m).mapError Fault.load := by
  rw [← foldlM_mapError]
  induction h generalizing m with
  | nil => rfl
  | @cons path document paths documents hfile _ ih =>
    have htagged : tagged (path :: paths) (document :: documents) =
        (document.map fun e => (path, e)) ++ tagged paths documents := rfl
    rw [htagged, List.foldlM_append, List.foldlM_map, List.foldlM_cons, hfile]
    exact congrArg _ (funext ih)

theorem files_of_filesAt {candidates : List String} (hp : filesAt tree candidates = .ok paths) : files tree candidates =
    if paths = [] then .error (.load (.noFiles candidates)) else do
      let merged ← paths.foldlM (fun (m : Merged) path => do
        (← file tree path).foldlM (fun m entry => (m.add path entry).mapError Fault.load) m) {}
      return merged.document := by
  rw [files, hp]
  cases paths <;> rfl

/-- Files make up one document, one after the other, unless two of them give the same section. What a section that is
given twice all the same says is never used. -/
theorem files_eq [Pattern.Compiler] (tree : Tree) (candidates : List String) (documents : List Document) (host : Host)
    (hp : filesAt tree candidates = .ok paths)
    (h : List.Forall₂ (fun path document => file tree path = .ok document) paths documents) :
    ((∃ name first second, files tree candidates = .error (.load (.definedTwice name first second))) ↔
      Shared paths documents) ∧
    (¬ Shared paths documents → files tree candidates =
      if paths = [] then .error (.load (.noFiles candidates)) else .ok documents.flatten) ∧
    (Config.Repeats documents.flatten →
      ∀ o, (Outcome.ofDocument documents.flatten host).result = .ok o → o.config? = none) := by
  have hfold := foldlM_files h {}
  obtain ⟨hok, herror⟩ := foldlM_add (textKeys_tagged h)
  have hshared : Shared paths documents →
      ∃ name first second, files tree candidates = .error (.load (.definedTwice name first second)) := by
    intro hs
    obtain ⟨name, first, second, he⟩ := herror (shared_iff.mp hs)
    have hne : paths ≠ [] := by
      obtain ⟨f, hf, _⟩ := hs
      exact List.ne_nil_of_mem (List.of_mem_zip hf).1
    refine ⟨name, first, second, ?_⟩
    rw [files_of_filesAt hp, if_neg hne, hfold, he]
    rfl
  have hunshared : ¬ Shared paths documents → files tree candidates =
      if paths = [] then .error (.load (.noFiles candidates)) else .ok documents.flatten := by
    intro hs
    obtain ⟨m, hm, ho⟩ := hok (not_not.mp fun hd => hs (shared_iff.mpr hd))
    rw [files_of_filesAt hp, hfold, hm]
    change (if paths = [] then _ else Except.ok m.document) = _
    rw [ho.document, map_snd_tagged h]
  refine ⟨⟨fun ⟨name, first, second, he⟩ => ?_, hshared⟩, hunshared, fun hr o ho => Outcome.config?_of_repeats hr ho⟩
  by_contra hs
  rw [hunshared hs] at he
  split at he <;> cases he

end

/-- Both files hold `[a]`. -/
theorem files_eq_clash :
    ∃ name first second, files
      { home := [], files := [(["a.ini".toList], [91, 97, 93, 10]), (["b.ini".toList], [91, 97, 93, 10])] }
      ["/a.ini", "/b.ini"] = .error (.load (.definedTwice name first second)) := by
  let tree : Tree :=
    { home := [], files := [(["a.ini".toList], [91, 97, 93, 10]), (["b.ini".toList], [91, 97, 93, 10])] }
  have hpaths : filesAt tree ["/a.ini", "/b.ini"] = .ok [.ofString "/a.ini", .ofString "/b.ini"] := by rfl
  have hfirst : file tree (.ofString "/a.ini") = .ok [(.text "a", .map [])] := by with_unfolding_all rfl
  have hsecond : file tree (.ofString "/b.ini") = .ok [(.text "a", .map [])] := by with_unfolding_all rfl
  have hfiles := files_eq tree ["/a.ini", "/b.ini"] [[(.text "a", .map [])], [(.text "a", .map [])]] ⟨1, 1⟩ hpaths
    (.cons hfirst (.cons hsecond .nil))
  exact hfiles.1.mpr ⟨_, List.mem_cons_self, _, List.mem_cons_of_mem _ List.mem_cons_self, by decide, .text "a",
    List.mem_cons_self, List.mem_cons_self⟩

end Stanza.Load
