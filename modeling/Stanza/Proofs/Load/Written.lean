import Stanza.Command.Dump
import Stanza.Proofs.File.Ini
import Stanza.Proofs.Load.File
import Stanza.Proofs.Logged
import Stanza.Proofs.Text.Utf8

/-! # INI files written and loaded

Sections that are written to an INI file are loaded from it as they are, with the texts of their values.
-/
namespace Stanza.Load

open Ini

/-- What is written for sections: their headings, the texts of their keys and those of their values. -/
def WrittenAs (sections : Settings) (written : List Written) : Prop :=
  List.Forall₂ (fun e w => e.1 = .text (Header.format { name := w.heading }) ∧ ∃ settings, e.2 = .map settings ∧
    List.Forall₂ (fun o t => o.1.display = .ok t.1 ∧ Dump.iniValue o.2 = .ok t.2) settings w.options) sections written

variable {sections : Settings} {written : List Written}

def texts (w : Written) : List String :=
  Header.format { name := w.heading } :: w.options.map fun o => o.1 ++ " = " ++ o.2

theorem map_texts (w : Written) : (texts w).map String.toList = w.lines := by
  have hheader : (Header.format { name := w.heading }).toList = headerLine w.heading := by
    simp [Header.format, Header.label, headerLine]
  have hoption : ∀ o : String × String, (o.1 ++ " = " ++ o.2).toList = optionLine o := by simp [optionLine]
  rw [texts, List.map_cons, List.map_map, hheader, Written.lines]
  exact congrArg _ (List.map_congr_left fun o _ => hoption o)

theorem map_intercalate_texts (written : List Written) :
    (List.intercalate [""] (written.map texts)).map String.toList = lines written := by
  induction written with
  | nil => rfl
  | cons w rest ih =>
    cases rest with
    | nil => rw [List.map_singleton, List.intercalate_singleton, map_texts, lines_singleton]
    | cons v rest =>
      rw [List.map_cons, List.map_cons, List.intercalate_cons_cons, ← List.map_cons, List.map_append, List.map_append,
        map_texts, ih, lines_cons_cons]
      simp

theorem iniSection_of_writtenAs {settings : Settings} {w : Written}
    (h : List.Forall₂ (fun o t => o.1.display = .ok t.1 ∧ Dump.iniValue o.2 = .ok t.2) settings w.options) :
    Dump.iniSection (Header.format { name := w.heading }) settings = .ok (texts w) := by
  rw [Dump.iniSection]
  refine Except.bind_eq_ok_iff.mpr ⟨w.options.map fun o => o.1 ++ " = " ++ o.2, ?_, rfl⟩
  rw [Except.mapM_eq_ok_iff, List.forall₂_map_right_iff]
  refine h.imp ?_
  rintro ⟨key, value⟩ t ⟨hkey, hvalue⟩
  dsimp only at hkey hvalue ⊢
  rw [hkey, hvalue]
  rfl

theorem ini_of_writtenAs (h : WrittenAs sections written) :
    ∃ text, Dump.ini sections = .ok text ∧ text.toList = Ini.document written := by
  refine ⟨_, Except.bind_eq_ok_iff.mpr ⟨written.map texts, ?_, rfl⟩, ?_⟩
  · rw [Except.mapM_eq_ok_iff, List.forall₂_map_right_iff]
    refine h.imp ?_
    rintro ⟨key, value⟩ w ⟨rfl, settings, rfl, hsettings⟩
    exact iniSection_of_writtenAs hsettings
  · rw [String.toList_append, String.toList_intercalate, map_intercalate_texts]
    rfl

/-- The text of sections is loaded as these sections. -/
theorem iniDocument_document (path : Path) {text : String} (ht : text.toList = Ini.document written)
    (hn : (written.map Written.heading).Nodup) (hc : ∀ w ∈ written, w.Clean) :
    iniDocument path text.toUTF8.toList = .ok (written.map fun w => (.text w.heading, .map w.settings)) := by
  obtain ⟨r, hscan, hfinish⟩ := read_document hn hc
  rw [iniDocument, Text.decodeUtf8Stream_toUTF8, ht]
  dsimp only
  rw [Text.unifyLineEnds_of_not_mem (return_not_mem_document hc)]
  refine Except.bind_eq_ok_iff.mpr ⟨r, congrArg _ hscan, Except.bind_eq_ok_iff.mpr ⟨_, congrArg _ hfinish, ?_⟩⟩
  rw [List.map_map]
  rfl

/-- Sections that are written to an INI file are loaded from it as they were: the same headings in the same order, with
the same keys and the texts of their values. -/
theorem file_ini [Yaml.Loader] (h : WrittenAs sections written) (hn : (written.map Written.heading).Nodup)
    (hc : ∀ w ∈ written, w.Clean) :
    ∃ text, Dump.ini sections = .ok text ∧ ∀ (tree : Tree) path place, tree.expandHome? path = some place →
      format? place = some .ini → tree.find? place = some (.file text.toUTF8.toList) →
      file tree path = .ok (written.map fun w => (.text w.heading, .map w.settings)) := by
  obtain ⟨text, hi, ht⟩ := ini_of_writtenAs h
  refine ⟨text, hi, fun tree path place hl hf hfind => ?_⟩
  rw [file_eq_document hl hfind hf]
  exact congrArg (Except.mapError Fault.load) (iniDocument_document place ht hn hc)

/-- Headings with a bracket, blanks and a letter of two bytes, a section without options, and values that are empty or
look like a comment. -/
theorem file_ini_values : ∃ text,
    Dump.ini [(.text "[a]", .map [(.text "k", .bool true), (.text "l m", .list [.text "x", .int 1]),
        (.text "n", .text "")]), (.text "[b]c]", .map []), (.text "[ é ]", .map [(.text "d", .text "# x = [y]")])] = .ok text ∧
    file { home := [], files := [(["f.ini".toList], text.toUTF8.toList)] } (.ofString "/f.ini") =
      .ok [(.text "a", .map [(.text "k", .text "true"), (.text "l m", .text "x,1"), (.text "n", .text "")]),
        (.text "b]c", .map []), (.text " é ", .map [(.text "d", .text "# x = [y]")])] := by
  have hlist : Dump.iniValue (.list [.text "x", .int 1]) = .ok "x,1" := by rfl
  have hwritten : WrittenAs
      [(.text "[a]", .map [(.text "k", .bool true), (.text "l m", .list [.text "x", .int 1]), (.text "n", .text "")]),
        (.text "[b]c]", .map []), (.text "[ é ]", .map [(.text "d", .text "# x = [y]")])]
      [⟨"a", [("k", "true"), ("l m", "x,1"), ("n", "")]⟩, ⟨"b]c", []⟩, ⟨" é ", [("d", "# x = [y]")]⟩] :=
    .cons ⟨rfl, _, rfl, .cons ⟨rfl, rfl⟩ (.cons ⟨rfl, hlist⟩ (.cons ⟨rfl, rfl⟩ .nil))⟩
      (.cons ⟨rfl, _, rfl, .nil⟩ (.cons ⟨rfl, _, rfl, .cons ⟨rfl, rfl⟩ .nil⟩ .nil))
  have hfind : ∀ bytes, Tree.find? { home := [], files := [(["f.ini".toList], bytes)] } (.ofString "/f.ini") =
      some (.file bytes) := by
    intro bytes
    rfl
  obtain ⟨text, hi, hall⟩ := file_ini hwritten (by decide) (by decide)
  exact ⟨text, hi, hall _ _ _ rfl (by rfl) (hfind _)⟩

end Stanza.Load
