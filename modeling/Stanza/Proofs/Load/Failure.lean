import Stanza.Proofs.File.Toml
import Stanza.Proofs.File.Yaml.Document
import Stanza.Proofs.Load.File

/-! # Files that cannot be loaded

A file that is there is refused with an error of loading, unless what is wrong with it is met where no such error is made:
the encoding of TOML, numbers, dates and truth values that cannot be read, escapes of no character, and the names of
sections that cannot be shown.
-/
namespace Stanza.Load

variable {tree : Tree} {path place : Path} {bytes : List UInt8} {fault : Fault}

/-! ## Single formats -/

theorem iniDocument_eq_error (h : (iniDocument path bytes).mapError Fault.load = .error fault) : ∃ e, fault = .load e := by
  obtain ⟨e, _, rfl⟩ := Except.mapError_eq_error_iff.mp h
  exact ⟨e, rfl⟩

theorem tomlSettings_eq_error (h : tomlSettings path bytes = .error fault) :
    (∃ e, fault = .load e) ∨ (∃ e, Text.decodeUtf8 bytes = .error e ∧ fault = .undecodable e) ∨
      ∃ text e, Text.decodeUtf8 bytes = .ok text ∧ Toml.Overlong (Toml.unifyLineEnds text) e ∧
        fault = .rejected (.digitLimit e) := by
  unfold tomlSettings at h
  split at h
  · next e hd =>
    cases h
    exact .inr (.inl ⟨e, hd, rfl⟩)
  · next text hd =>
    obtain ⟨e, he, hfault⟩ := Except.mapError_eq_error_iff.mp h
    have hcause := (Toml.read_completes text).error he
    cases e with
    | invalid => exact .inl ⟨_, hfault.symm⟩
    | digitLimit e => exact .inr (.inr ⟨text, e, hd, hcause, hfault.symm⟩)

theorem tomlSettings_raw {settings : Settings} (h : tomlSettings path bytes = .ok settings) :
    settings.Raw Value.isText := by
  unfold tomlSettings at h
  split at h
  · cases h
  · next text _ => exact (Toml.read_completes text).ok (Except.mapError_eq_ok_iff.mp h)

theorem yamlSettings_eq_error [Yaml.Loader] (h : yamlSettings path bytes = .error fault) :
    (∃ e, fault = .load e) ∨ Yaml.Loader.load bytes = .error (.fault fault) ∧ (∀ e, fault ≠ .undecodable e) ∧
      ∀ e, fault ≠ .system e := by
  obtain h | ⟨root, _, h⟩ := Except.bind_eq_error_iff.mp h
  · obtain ⟨e, he, hfault⟩ := Except.mapError_eq_error_iff.mp h
    split at hfault
    · exact .inl ⟨_, hfault.symm⟩
    · exact .inl ⟨_, hfault.symm⟩
    · exact .inl ⟨_, hfault.symm⟩
    · next f hu hs =>
      cases hfault
      exact .inr ⟨he, fun e hf => hu e (by rw [hf]), fun e hf => hs e (by rw [hf])⟩
  · split at h <;> cases h
    exact .inl ⟨_, rfl⟩

theorem yamlSettings_eq_ok [Yaml.Loader] {settings : Settings} (h : yamlSettings path bytes = .ok settings) :
    settings = [] ∨ Yaml.Loader.load bytes = .ok (.map settings) := by
  obtain ⟨root, hroot, h⟩ := Except.bind_eq_ok_iff.mp h
  have hload := Except.mapError_eq_ok_iff.mp hroot
  split at h <;> cases h
  · exact .inl rfl
  · exact .inr hload

/-! ## Tables as sections -/

theorem sectionEntries_eq_error {name : String} {settings : Settings} (h : sectionEntries name settings = .error fault) :
    ∃ key contents e, (key, .map contents) ∈ settings ∧ key.display = .error e ∧ fault = .rejected (.digitLimit e) := by
  unfold sectionEntries at h
  obtain h | ⟨_, _, h⟩ := Except.bind_eq_error_iff.mp h
  · obtain ⟨before, ⟨key, contents⟩, after, hlist, _, h⟩ := Except.mapM_eq_error_iff.mp h
    have hm : (key, contents) ∈ settings.filter (·.2.isMap) := hlist ▸ List.mem_append_right _ List.mem_cons_self
    obtain ⟨hm, hmap⟩ := List.mem_filter.mp hm
    obtain h | ⟨_, _, h⟩ := Except.bind_eq_error_iff.mp h
    · obtain ⟨e, he, rfl⟩ := digits_eq_error_iff.mp h
      cases contents with
      | map contents => exact ⟨key, contents, e, hm, he, rfl⟩
      | _ => cases hmap
    · cases h
  · cases h

/-- A name of a section or of a table in it that is a number too long to be shown. -/
def Unnamable (root : Settings) (e : Text.DigitLimitError) : Prop :=
  (∃ key contents, (key, contents) ∈ root ∧ key.isText = false ∧ key.literal = .error e) ∨
    ∃ name settings key contents, (.text name, .map settings) ∈ root ∧ (key, .map contents) ∈ settings ∧
      key.display = .error e

theorem flatten_eq_error {root : Settings} (h : flatten path root = .error fault) :
    (∃ e, fault = .load e) ∨ ∃ e, Unnamable root e ∧ fault = .rejected (.digitLimit e) := by
  unfold flatten at h
  obtain h | ⟨_, _, h⟩ := Except.bind_eq_error_iff.mp h
  · obtain ⟨before, ⟨key, value⟩, after, hlist, _, h⟩ := Except.mapM_eq_error_iff.mp h
    have hm : (key, value) ∈ root := hlist ▸ List.mem_append_right _ List.mem_cons_self
    dsimp only at h
    split at h
    · next name settings =>
      obtain ⟨key, contents, e, hk, he, rfl⟩ := sectionEntries_eq_error h
      exact .inr ⟨e, .inr ⟨name, settings, key, contents, hm, hk, he⟩, rfl⟩
    · cases h
    · next htext _ =>
      obtain h | ⟨_, _, h⟩ := Except.bind_eq_error_iff.mp h
      · obtain ⟨e, he, rfl⟩ := digits_eq_error_iff.mp h
        refine .inr ⟨e, .inl ⟨key, value, hm, ?_, he⟩, rfl⟩
        cases key with
        | text name => exact absurd rfl (htext name)
        | _ => rfl
      · cases h
        exact .inl ⟨_, rfl⟩
  · cases h

theorem not_unnamable {root : Settings} (h : root.Raw Value.isText) (e : Text.DigitLimitError) : ¬ Unnamable root e := by
  have htext : ∀ {key : Value}, key.isText = true → key.display ≠ .error e := by
    intro key hk
    cases key with
    | text s => exact nofun
    | _ => cases hk
  rintro (⟨key, contents, hm, hk, -⟩ | ⟨name, settings, key, contents, hm, hk, he⟩)
  · rw [(h _ hm).1] at hk
    cases hk
  · have hsettings := Settings.raw_map_iff.mp (h _ hm).2
    exact htext (hsettings _ hk).1 he

/-! ## Files -/

section

variable [Yaml.Loader]

/-- What leads past the errors of loading, and the fault that it leads to. -/
inductive Escapes (bytes : List UInt8) : FileFormat → Fault → Prop
  | encoding {e : Text.Utf8Error} (h : Text.decodeUtf8 bytes = .error e) : Escapes bytes .toml (.undecodable e)
  | integer {text : List Char} {e : Text.DigitLimitError} (hd : Text.decodeUtf8 bytes = .ok text)
    (h : Toml.Overlong (Toml.unifyLineEnds text) e) : Escapes bytes .toml (.rejected (.digitLimit e))
  | loader {fault : Fault} (h : Yaml.Loader.load bytes = .error (.fault fault)) (hu : ∀ e, fault ≠ .undecodable e)
    (hs : ∀ e, fault ≠ .system e) : Escapes bytes .yaml fault
  | name {root : Settings} {e : Text.DigitLimitError} (hr : Yaml.Loader.load bytes = .ok (.map root))
    (h : Unnamable root e) : Escapes bytes .yaml (.rejected (.digitLimit e))

theorem Escapes.isReported [Yaml.Loader.Lawful] {format : FileFormat} (h : Escapes bytes format fault) :
    fault.isReported = false := by
  cases h with
  | loader h _ _ => exact Yaml.Loader.Lawful.unreported h
  | encoding _ | integer _ _ | name _ _ => rfl

theorem load_or_escapes {format : FileFormat} (h : document path bytes format = .error fault) :
    (∃ e, fault = .load e) ∨ Escapes bytes format fault := by
  cases format with
  | ini => exact .inl (iniDocument_eq_error h)
  | toml =>
    obtain h | ⟨root, hroot, h⟩ := Except.bind_eq_error_iff.mp h
    · obtain h | ⟨e, hd, rfl⟩ | ⟨text, e, hd, hlong, rfl⟩ := tomlSettings_eq_error h
      · exact .inl h
      · exact .inr (.encoding hd)
      · exact .inr (.integer hd hlong)
    · obtain h | ⟨e, hname, rfl⟩ := flatten_eq_error h
      · exact .inl h
      · exact absurd hname (not_unnamable (tomlSettings_raw hroot) e)
  | yaml =>
    obtain h | ⟨root, hroot, h⟩ := Except.bind_eq_error_iff.mp h
    · obtain h | ⟨hload, hu, hs⟩ := yamlSettings_eq_error h
      · exact .inl h
      · exact .inr (.loader hload hu hs)
    · obtain h | ⟨e, hname, rfl⟩ := flatten_eq_error h
      · exact .inl h
      · obtain rfl | hload := yamlSettings_eq_ok hroot
        · exact absurd hname (not_unnamable (fun _ hm => absurd hm List.not_mem_nil) e)
        · exact .inr (.name hload hname)

theorem document_toml_of_undecodable {e : Text.Utf8Error} (h : Text.decodeUtf8 bytes = .error e) :
    document path bytes .toml = .error (.undecodable e) := by
  rw [document, tomlSettings, h]
  rfl

theorem document_yaml_of_fault (h : Yaml.Loader.load bytes = .error (.fault fault)) (hu : ∀ e, fault ≠ .undecodable e)
    (hs : ∀ e, fault ≠ .system e) : document path bytes .yaml = .error fault := by
  rw [document, yamlSettings, h]
  cases fault with
  | undecodable e => exact absurd rfl (hu e)
  | system e => exact absurd rfl (hs e)
  | _ => rfl

/-- A file of a known format that cannot be loaded is refused with an error of loading exactly if nothing in it escapes the
errors of its format. In INI nothing does, in TOML a wrong encoding always does, and in YAML so does every fault of the
loader that is neither one of the encoding nor one of the system. -/
theorem file_load_iff_not_escapes [Yaml.Loader.Lawful] {format : FileFormat} (hl : tree.expandHome? path = some place)
    (hfile : tree.find? place = some (.file bytes)) (hformat : format? place = some format) :
    (∀ fault, file tree path = .error fault → ((∃ e, fault = .load e) ↔ ¬ Escapes bytes format fault)) ∧
    (format = .ini → ∀ fault, ¬ Escapes bytes format fault) ∧
    (format = .toml → ∀ e, Text.decodeUtf8 bytes = .error e → file tree path = .error (.undecodable e)) ∧
    (format = .yaml → ∀ fault, Yaml.Loader.load bytes = .error (.fault fault) → (∀ e, fault ≠ .undecodable e) →
      (∀ e, fault ≠ .system e) → file tree path = .error fault) := by
  rw [file_eq_document hl hfile hformat]
  refine ⟨fun fault h => ?_, ?_, ?_, ?_⟩
  · constructor
    · rintro ⟨e, rfl⟩ hescapes
      exact absurd rfl (Fault.ne_load hescapes.isReported e)
    · exact fun hnot => (load_or_escapes h).resolve_right hnot
  · rintro rfl fault h
    cases h
  · rintro rfl e hd
    exact document_toml_of_undecodable hd
  · rintro rfl fault h hu hs
    exact document_yaml_of_fault h hu hs

end

/-- A TOML file of one byte that is no text. -/
theorem file_undecodable : ∃ tree path bytes fault, Tree.find? tree path = some (.file bytes) ∧ format? path = some .toml ∧
    file tree path = .error fault ∧ ¬ ∃ e, fault = .load e := by
  have hfails : (file { home := [], files := [(["a.toml".toList], [0xff])] } (.ofString "/a.toml")).failsWith
      (!·.isReported) = true := by
    decide +kernel
  obtain ⟨fault, h, hp⟩ := Except.failsWith_iff.mp hfails
  refine ⟨_, _, [0xff], fault, ?_, ?_, h, ?_⟩
  · rfl
  · rfl
  · rintro ⟨e, rfl⟩
    cases hp

/-- An INI file of one letter has no section. -/
theorem file_headless : ∃ e,
    file { home := [], files := [(["a.ini".toList], [120])] } (.ofString "/a.ini") = .error (.load e) := by
  let tree : Tree := { home := [], files := [(["a.ini".toList], [120])] }
  have hhome : tree.expandHome? (.ofString "/a.ini") = some (.ofString "/a.ini") := by rfl
  have hfile : tree.find? (.ofString "/a.ini") = some (.file [120]) := by rfl
  have hformat : format? (.ofString "/a.ini") = some .ini := by rfl
  have hfails : (file tree (.ofString "/a.ini")).failsWith (fun _ => true) = true := by
    decide +kernel
  obtain ⟨fault, h, -⟩ := Except.failsWith_iff.mp hfails
  obtain ⟨hiff, hini, -⟩ := file_load_iff_not_escapes hhome hfile hformat
  obtain ⟨e, rfl⟩ := (hiff fault h).mpr (hini rfl fault)
  exact ⟨e, h⟩

/-! ## Several files -/

abbrev Unreported {α : Type} (x : Except Fault α) : Prop := x.Ends Anything fun fault => fault.isReported = false

end Stanza.Load
