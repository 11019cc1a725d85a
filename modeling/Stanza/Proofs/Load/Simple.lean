import Stanza.Proofs.Load
import Stanza.Proofs.Load.Failure
import Stanza.Proofs.Logged.Success

/-! # The values of loaded documents

Whatever their format, files hold nothing but scalars at the ends of their values, and so does the document they make up.
-/
namespace Stanza.Load

variable {tree : Tree} {path : Path} {d : Document}

/-! ## INI -/

theorem simple_settingsOf (options : Ini.Options) : (Ini.settingsOf options).Simple := by
  intro e he
  obtain ⟨o, _, rfl⟩ := List.mem_map.mp he
  exact ⟨.of_isScalar rfl, .of_isScalar rfl⟩

theorem simple_of_iniDocument {bytes : List UInt8} (h : iniDocument path bytes = .ok d) : Settings.Simple d := by
  simp only [iniDocument] at h
  obtain ⟨reader, _, h⟩ := Except.bind_eq_ok_iff.mp h
  split at h
  · cases h
  · obtain ⟨sections, hs, h⟩ := Except.bind_eq_ok_iff.mp h
    cases h
    have hfinish := Except.mapError_eq_ok_iff.mp hs
    unfold Ini.finish at hfinish
    split at hfinish
    · cases hfinish
      intro e he
      obtain ⟨_, hs, rfl⟩ := List.mem_map.mp he
      obtain ⟨b, _, rfl⟩ := List.mem_map.mp hs
      exact ⟨.of_isScalar rfl, Value.simple_map_iff.mpr ((simple_settingsOf _).overlay (simple_settingsOf _))⟩
    · cases hfinish

/-! ## Nested tables -/

theorem simple_of_sectionEntries {name : String} {settings : Settings} (hs : settings.Simple)
    (h : sectionEntries name settings = .ok d) : Settings.Simple d := by
  obtain ⟨own, tables, hown, htables, rfl⟩ := sectionEntries_eq_ok h
  intro e he
  rcases List.mem_append.mp he with he | he
  · obtain ⟨s, hm, rfl⟩ := List.mem_map.mp he
    rw [Option.mem_toList] at hm
    cases hm
    refine ⟨.of_isScalar rfl, Value.simple_map_iff.mpr fun f hf => hs f ?_⟩
    exact List.mem_of_mem_filter (hown ▸ hf : f ∈ Section.scalars settings)
  · obtain ⟨t, ht, rfl⟩ := List.mem_map.mp he
    obtain ⟨f, hf, _, hcontents⟩ := htables.exists_of_mem_right ht
    have hsimple := (hs f (List.mem_of_mem_filter hf)).2
    rw [hcontents] at hsimple
    exact ⟨.of_isScalar rfl, hsimple⟩

theorem simple_of_flatten {root : Settings} (hr : root.Simple) (h : flatten path root = .ok d) : Settings.Simple d := by
  obtain ⟨parts, hparts, h⟩ := Except.bind_eq_ok_iff.mp h
  cases h
  intro e he
  obtain ⟨part, hpart, he⟩ := List.mem_flatten.mp he
  obtain ⟨⟨key, value⟩, hm, hentry⟩ := (Except.mapM_eq_ok_iff.mp hparts).exists_of_mem_right hpart
  dsimp only at hentry
  split at hentry
  · next name settings => exact simple_of_sectionEntries (Value.simple_map_iff.mp (hr _ hm).2) hentry e he
  · cases hentry
    rw [List.mem_singleton.mp he]
    exact hr _ hm
  · obtain ⟨_, _, hentry⟩ := Except.bind_eq_ok_iff.mp hentry
    cases hentry

/-! ## Files -/

/-- Whether it is accepted or not, an entry is all that is added. -/
theorem Merged.add_eq_ok {m n : Merged} {entry : Value × Value} (h : m.add path entry = .ok n) :
    n.document = m.document ++ [entry] := by
  unfold Merged.add at h
  split at h
  · dsimp only at h
    split at h
    · split at h
      · cases h
      · cases h
        rfl
    · cases h
      rfl
  · cases h
    rfl

variable [Yaml.Loader] [Yaml.Loader.Lawful]

theorem simple_of_document {bytes : List UInt8} {format : FileFormat} (h : document path bytes format = .ok d) :
    Settings.Simple d := by
  cases format with
  | ini => exact simple_of_iniDocument (Except.mapError_eq_ok_iff.mp h)
  | toml =>
    obtain ⟨root, hroot, h⟩ := Except.bind_eq_ok_iff.mp h
    have hsimple := (Settings.raw_map_iff.mpr (tomlSettings_raw hroot)).simple fun _ => Value.isScalar_of_isText
    exact simple_of_flatten (Value.simple_map_iff.mp hsimple) h
  | yaml =>
    obtain ⟨root, hroot, h⟩ := Except.bind_eq_ok_iff.mp h
    refine simple_of_flatten ?_ h
    obtain rfl | hload := yamlSettings_eq_ok hroot
    · exact fun _ he => absurd he List.not_mem_nil
    · exact Value.simple_map_iff.mp (Yaml.Loader.Lawful.simple hload)

theorem simple_of_file (h : file tree path = .ok d) : Settings.Simple d := by
  obtain ⟨_, _, _, h⟩ := exists_document_of_file h
  exact simple_of_document h

theorem simple_of_files {candidates : List String} (h : files tree candidates = .ok d) : Settings.Simple d := by
  obtain ⟨paths, _, h⟩ := Except.bind_eq_ok_iff.mp h
  split at h
  · cases h
  · obtain ⟨m, hm, h⟩ := Except.bind_eq_ok_iff.mp h
    cases h
    let isSimple (m : Merged) : Prop := Settings.Simple m.document
    refine Except.of_foldlM (P := isSimple) (fun path _ b c hb hc => ?_) (fun _ he => absurd he List.not_mem_nil) hm
    obtain ⟨entries, hfile, hc⟩ := Except.bind_eq_ok_iff.mp hc
    have hsimple := simple_of_file hfile
    refine Except.of_foldlM (P := isSimple) (fun entry hentry b c hb hc => ?_) hb hc
    have hadd := Merged.add_eq_ok (Except.mapError_eq_ok_iff.mp hc)
    intro e he
    rw [hadd] at he
    rcases List.mem_append.mp he with he | he
    · exact hb e he
    · rw [List.mem_singleton.mp he]
      exact hsimple entry hentry

end Stanza.Load
