import Stanza.Load
import Stanza.Proofs.Logged.Failure

/-! # Finding a file

A file is read as its format says once it is found. Before that a home directory can be missing, the system can refuse to
look, or loading ends with an error of its own.
-/
namespace Stanza.Load

variable {tree : Tree} {path place : Path} {fault : Fault}

theorem locate_eq_ok_iff : locate tree path = .ok place ↔ tree.expandHome? path = some place := by
  unfold locate
  cases tree.expandHome? path <;> simp

theorem locate_eq_error (h : locate tree path = .error fault) : fault = .homeless := by
  unfold locate at h
  cases hp : tree.expandHome? path with
  | none =>
    rw [hp] at h
    cases h
    rfl
  | some place =>
    rw [hp] at h
    cases h

theorem look_eq_error (h : look tree path = .error fault) : ∃ e, fault = .system e := by
  unfold look at h
  split at h
  · split at h
    · cases h
    · cases h
      exact ⟨_, rfl⟩
  · cases h

theorem look_of_find? {entry : Tree.Entry} (h : tree.find? path = some entry) (hn : ∀ e, entry ≠ .refused .look e) :
    look tree path = .ok (some entry) := by
  unfold look
  split
  · next e hfind =>
    cases hfind.symm.trans h
    exact absurd rfl (hn e)
  · rw [h]

theorem find?_of_look {entry : Tree.Entry} (h : look tree path = .ok (some entry)) : tree.find? path = some entry := by
  unfold look at h
  split at h
  · split at h <;> cases h
  · exact Except.ok.inj h

section

variable [Yaml.Loader] {bytes : List UInt8} {format : FileFormat}

theorem file_of_locate (hl : locate tree path = .ok place) : file tree path = look tree place >>= entryDocument place := by
  rw [file, hl]
  rfl

/-- A file that is there and of a known format is read as its format says. -/
theorem file_eq_document (hl : tree.expandHome? path = some place) (hfind : tree.find? place = some (.file bytes))
    (hformat : format? place = some format) : file tree path = document place bytes format := by
  rw [file_of_locate (locate_eq_ok_iff.mpr hl), look_of_find? hfind fun _ => nofun]
  change entryDocument place (some (.file bytes)) = _
  simp only [entryDocument, hformat]

theorem entryDocument_cases (place : Path) (found : Option Tree.Entry) :
    (∃ e, entryDocument place found = .error (.load e)) ∨ ∃ bytes format, found = some (.file bytes) ∧
      format? place = some format ∧ entryDocument place found = document place bytes format := by
  unfold entryDocument
  split
  · next bytes format hformat => exact .inr ⟨bytes, format, rfl, hformat, rfl⟩
  all_goals exact .inl ⟨_, rfl⟩

/-- Where no file of a known format is found, the fault is that of looking for it. -/
theorem file_cases (tree : Tree) (path : Path) :
    (∃ fault, file tree path = .error fault ∧ (fault = .homeless ∨ (∃ e, fault = .system e) ∨ ∃ e, fault = .load e)) ∨
    ∃ place bytes format, tree.expandHome? path = some place ∧ tree.find? place = some (.file bytes) ∧
      format? place = some format ∧ file tree path = document place bytes format := by
  cases hl : locate tree path with
  | error fault =>
    refine .inl ⟨fault, ?_, .inl (locate_eq_error hl)⟩
    rw [file, hl]
    rfl
  | ok place =>
    rw [file_of_locate hl]
    cases hlook : look tree place with
    | error fault => exact .inl ⟨fault, rfl, .inr (.inl (look_eq_error hlook))⟩
    | ok found =>
      obtain ⟨e, he⟩ | ⟨bytes, format, rfl, hformat, he⟩ := entryDocument_cases place found
      · exact .inl ⟨_, he, .inr (.inr ⟨e, rfl⟩)⟩
      · exact .inr ⟨place, bytes, format, locate_eq_ok_iff.mp hl, find?_of_look hlook, hformat, he⟩

theorem exists_document_of_file {d : Document} (h : file tree path = .ok d) :
    ∃ place bytes format, document place bytes format = .ok d := by
  obtain ⟨fault, he, _⟩ | ⟨place, bytes, format, _, _, _, he⟩ := file_cases tree path
  · cases he.symm.trans h
  · exact ⟨place, bytes, format, he.symm.trans h⟩

end

end Stanza.Load
