import Stanza.Proofs.Database.Reload

/-! # The document that is written out

All sections of a configuration with their headers. Without the brackets these are a document of the profiles between
the other sections.
-/
namespace Stanza

namespace Config

/-! ## The copy of a configuration -/

def blockNames : List String := ["global", "developer", "database", "read-database", "command-processing", "puppetdb"]

theorem get?_copy (c : Config) (name : String) : c.copy.get? name = (Settings.get? (thawEntries [
    (.text "global", .map c.globals), (.text "developer", .map c.developer), (.text "database", .map c.database),
    (.text "read-database", .map c.readProfile), (.text "command-processing", .map c.commandProcessing),
    (.text "puppetdb", .map c.puppetdb)]) name).or ((c.extra.get? name).map Value.thaw) := by
  rw [copy, Settings.get?_overlay, get?_thawEntries c.extra]
  · simp [thawEntries, Settings.keys]
  · simp [thawEntries, Settings.TextKeys, Settings.keys]

theorem get?_copy_global (c : Config) : c.copy.get? "global" = some (.map (thawEntries c.globals)) := by
  rw [get?_copy]
  rfl

theorem get?_copy_of_not_mem (c : Config) {name : String} (h : name ∉ blockNames) :
    c.copy.get? name = (c.extra.get? name).map Value.thaw := by
  rw [get?_copy, Option.or_of_isNone]
  simp only [blockNames, List.mem_cons, List.not_mem_nil, or_false, not_or] at h
  rw [get?_thawEntries]
  simp [Settings.get?_cons, Settings.hasName, h, Ne.symm]

end Config

namespace Dump

open Database Section

def withoutBrackets : Value → Value
  | .text header => .text (String.ofList (header.toList.drop 1).dropLast)
  | key => key

def document (sections : Settings) : Document := sections.map fun e => (withoutBrackets e.1, e.2)

theorem withoutBrackets_format (h : Header) : withoutBrackets (.text h.format) = .text h.label := by
  simp [withoutBrackets, Header.format]

def shown : Part → Value × Value
  | .own settings => (.text (Header.format { name := "database" }), .map settings)
  | .sub name settings => (.text (Header.format { name := "database", subsection := some name }), .map settings)
  | .plain name contents => (.text (Header.format { name }), contents)

theorem document_shown (parts : List Part) : document (parts.map shown) = parts.map Part.entry := by
  rw [document, List.map_map]
  refine List.map_congr_left fun part _ => ?_
  cases part <;> simp only [Function.comp_apply, shown, withoutBrackets_format, Part.entry] <;> rfl

theorem shown_profile (name : Option String) (settings : Settings) : shown (.profile name settings)
    = (.text (Header.format { name := "database", subsection := name }), .map settings) := by
  cases name <;> rfl

theorem filterMap_extraBlock? {copy extra : Settings} {extras : List (String × Settings)}
    (h : List.Forall₂ (fun e x => e.1 = .text x.1 ∧ copy.get? x.1 = some (.map x.2)) extra extras) :
    extra.filterMap (extraBlock? copy) = extras.map fun x => (.text (Header.format { name := x.1 }), .map x.2) := by
  induction h with
  | nil => rfl
  | @cons e x es xs hex _ ih =>
    rcases e with ⟨key, v⟩
    cases hex.1
    rw [List.filterMap_cons, List.map_cons, ← ih]
    simp only [extraBlock?, hex.2]

structure Raw where
  globals : Settings
  profiles : Resolved Settings
  readProfile : Settings
  commandProcessing : Settings
  puppetdb : Settings
  developer : Settings
  extras : List (String × Settings)

namespace Raw

def front (raw : Raw) : List (String × Value) := [("global", .map raw.globals)]

def back (raw : Raw) : List (String × Value) :=
  [("read-database", .map raw.readProfile), ("command-processing", .map raw.commandProcessing),
    ("puppetdb", .map raw.puppetdb), ("developer", .map raw.developer)] ++ raw.extras.map fun x => (x.1, .map x.2)

def parts (raw : Raw) : List Part := written raw.front raw.profiles raw.back

/-- Each block is rendered, and other sections are copied. -/
structure Renders (raw : Raw) (c : Config) (host : Host) : Prop where
  globals : thawEntries c.globals = raw.globals
  profiles : Resolved.Rel
    (fun raw profile => rawSettings Schema.writeDatabase profile Retirement.databaseKeys = .ok raw) raw.profiles c.profiles
  readProfile : rawSettings Schema.database c.readProfile Retirement.databaseKeys = .ok raw.readProfile
  commandProcessing : rawSettings (Schema.commandProcessing host) c.commandProcessing Retirement.commandProcessingKeys
    = .ok raw.commandProcessing
  puppetdb : rawSettings Schema.puppetdb c.puppetdb [] = .ok raw.puppetdb
  developer : rawSettings Schema.developer c.developer [] = .ok raw.developer
  extras : List.Forall₂ (fun e x => e.1 = .text x.1 ∧ c.copy.get? x.1 = some (.map x.2)) c.extra raw.extras

/-- What is written out. -/
theorem Renders.sections_eq {raw : Raw} {c : Config} {host : Host} (h : raw.Renders c host) :
    sections c host = .ok (raw.parts.map shown) := by
  have hmapM : (c.profiles.toList.mapM fun e => do
      let header := Header.format { name := "database", subsection := e.1 }
      return (Value.text header, Value.map (← rawSettings Schema.writeDatabase e.2 Retirement.databaseKeys)) :
        Except Fault Settings) = .ok ((raw.profiles.toList.map fun e => Part.profile e.1 e.2).map shown) := by
    rw [List.map_map, Except.mapM_eq_ok_iff, List.forall₂_map_right_iff]
    refine h.profiles.toList.flip.imp fun e f hef => ?_
    simp only [hef.2, ← hef.1, Function.comp_apply, shown_profile]
    rfl
  simp only [sections, hmapM, h.readProfile, h.commandProcessing, h.puppetdb, h.developer, Config.get?_copy_global,
    filterMap_extraBlock? h.extras, h.globals]
  exact congrArg Except.ok (by simp [parts, written, front, back, shown, Function.comp_def])

end Raw

end Dump

end Stanza
