import Stanza.Proofs.Command.Sections
import Stanza.Proofs.Config.Resolution
import Stanza.Proofs.Retirement

/-! # Written documents

What is written out of a configuration repeats no section. Look-up in it finds the raw form of each block, and its other
sections are those of the configuration.
-/
namespace Stanza.Config

open Database

def others (extras : List (String × Settings)) : Settings := extras.map fun x => (.text x.1, .map x.2)

variable {document : Document} {extras : List (String × Settings)}

theorem exists_others (h : ∀ e ∈ freezeEntries (document.filter isExtra), e.2.isMap = true) :
    ∃ extras, document.filter isExtra = others extras := by
  have hex : ∀ e ∈ document.filter isExtra, ∃ x : String × Settings, e = (.text x.1, .map x.2) := by
    rintro ⟨k, v⟩ he
    rw [freezeEntries_eq_map, List.forall_mem_map] at h
    have hmap := h _ he
    have hextra := (List.mem_filter.mp he).2
    cases k with
    | text name =>
      cases v with
      | map settings => exact ⟨(name, settings), rfl⟩
      | _ => cases hmap
    | _ => cases hextra
  obtain ⟨extras, hx⟩ := List.exists_forall₂ hex
  refine ⟨extras, ?_⟩
  rw [others, ← List.forall₂_eq_eq_eq, List.forall₂_map_right_iff]
  exact hx

def thawed (extras : List (String × Settings)) : List (String × Settings) :=
  extras.map fun x => (x.1, thawEntries (freezeEntries x.2))

theorem keys_others_thawed (extras : List (String × Settings)) :
    Settings.keys (others (thawed extras)) = Settings.keys (others extras) := by
  rw [others, others, thawed, Settings.keys, Settings.keys, List.map_map, List.map_map, List.map_map]
  rfl

theorem freezeEntries_others_thawed (extras : List (String × Settings)) :
    freezeEntries (others (thawed extras)) = freezeEntries (others extras) := by
  rw [freezeEntries_eq_map, freezeEntries_eq_map, others, others, thawed, List.map_map, List.map_map, List.map_map]
  refine List.map_congr_left fun x _ => ?_
  simp only [Function.comp_apply, Value.freeze, freezeEntries_thawEntries]

theorem forall₂_extra (c : Config) (hextra : c.extra = freezeEntries (others extras))
    (hn : (Settings.keys (others extras)).Nodup) (hnames : ∀ x ∈ extras, x.1 ∉ blockNames) :
    List.Forall₂ (fun e x => e.1 = .text x.1 ∧ c.copy.get? x.1 = some (.map x.2)) c.extra (thawed extras) := by
  have hget : ∀ x ∈ extras, c.copy.get? x.1 = some (.map (thawEntries (freezeEntries x.2))) := by
    intro x hx
    have hm : (.text x.1, .map x.2) ∈ others extras := List.mem_map_of_mem hx
    rw [get?_copy_of_not_mem c (hnames x hx), hextra, get?_freezeEntries, Settings.get?_of_mem hn hm]
    rfl
  rw [hextra, freezeEntries_eq_map, others, thawed, List.map_map, List.forall₂_map_left_iff, List.forall₂_map_right_iff,
    List.forall₂_same]
  exact fun x hx => ⟨rfl, hget x hx⟩

def IsOther (name : String) : Prop := name ∉ resolvedHeadings ∧ isHeading name = false

theorem isExtra_text_iff {name : String} {v : Value} : isExtra (.text name, v) = true ↔ IsOther name := by
  simp [isExtra, IsOther]

theorem IsOther.not_mem_blockNames {name : String} (h : IsOther name) : name ∉ blockNames := by
  intro hm
  have hcases : ∀ name ∈ blockNames, name ∈ resolvedHeadings ∨ isHeading name = true := by decide
  rcases hcases name hm with hr | hh
  · exact h.1 hr
  · rw [h.2] at hh
    cases hh

variable {raw : Dump.Raw}

theorem keys_entries_raw (raw : Dump.Raw) : Settings.keys (entries (raw.front ++ raw.back)) =
    resolvedHeadings.map Value.text ++ Settings.keys (others raw.extras) := by
  simp [entries, Dump.Raw.front, Dump.Raw.back, Settings.keys, others, resolvedHeadings]

/-- Nothing that is written is repeated or has a name that cannot be written. -/
structure Writable (raw : Dump.Raw) : Prop where
  clean : ∀ e ∈ raw.profiles.toList, ∀ name, e.1 = some name → CleanName name
  names : raw.profiles.names.Nodup
  extras : (Settings.keys (others raw.extras)).Nodup
  other : ∀ x ∈ raw.extras, IsOther x.1

theorem Writable.regular (h : Writable raw) : Regular raw.parts := by
  refine regular_written h.clean h.names ?_ ?_
  · rw [keys_entries_raw]
    refine List.nodup_append'.mpr ⟨by simp [resolvedHeadings], h.extras, fun k hk hm => ?_⟩
    obtain ⟨name, hname, rfl⟩ := List.mem_map.mp hk
    rw [others, Settings.keys, List.map_map] at hm
    obtain ⟨x, hx, hxn⟩ := List.mem_map.mp hm
    exact (h.other x hx).1 (Value.text.inj hxn ▸ hname)
  · intro e he
    rw [Dump.Raw.back, ← List.append_assoc] at he
    rcases List.mem_append.mp he with he | he
    · exact (by decide : ∀ name ∈ resolvedHeadings, isHeading name = false) _ (by
        simpa [Dump.Raw.front, resolvedHeadings] using List.mem_map_of_mem he)
    · obtain ⟨x, hx, rfl⟩ := List.mem_map.mp he
      exact (h.other x hx).2

theorem Writable.filter_isExtra (h : Writable raw) : (raw.parts.map Part.entry).filter isExtra = others raw.extras := by
  have hprofiles : ((raw.profiles.toList.map fun e => Part.profile e.1 e.2).map Part.entry).filter isExtra = [] := by
    rw [List.map_map, List.filter_eq_nil_iff]
    intro e he
    obtain ⟨⟨name, settings⟩, hm, rfl⟩ := List.mem_map.mp he
    cases name with
    | none => exact Bool.false_ne_true
    | some name =>
      change ¬ isExtra (.text (label (some name)), .map settings) = true
      rw [isExtra_text_iff, IsOther, isHeading_label (h.clean _ hm name rfl)]
      simp
  have hothers : (others raw.extras).filter isExtra = others raw.extras := by
    refine List.filter_eq_self.mpr fun e he => ?_
    obtain ⟨x, hx, rfl⟩ := List.mem_map.mp he
    exact isExtra_text_iff.mpr (h.other x hx)
  have hback : (raw.back.map fun e => Part.plain e.1 e.2).map Part.entry
      = [(.text "read-database", .map raw.readProfile), (.text "command-processing", .map raw.commandProcessing),
        (.text "puppetdb", .map raw.puppetdb), (.text "developer", .map raw.developer)] ++ others raw.extras := by
    simp [Dump.Raw.back, others, Part.entry]
  rw [Dump.Raw.parts, Database.written, List.map_append, List.map_append, List.filter_append, List.filter_append,
    hprofiles, hback, List.filter_append, hothers]
  rfl

/-- What the written document holds under a name. -/
theorem Writable.get (h : Writable raw) {name : String} {v : Value} (hm : (name, v) ∈ raw.front ++ raw.back) :
    Settings.get (raw.parts.map Part.entry) name = v := by
  have hpart : Part.plain name v ∈ raw.parts := by
    rw [Dump.Raw.parts, Database.written, List.mem_append, List.mem_append]
    rcases List.mem_append.mp hm with hm | hm
    · exact .inl (.inl (List.mem_map.mpr ⟨_, hm, rfl⟩))
    · exact .inr (List.mem_map.mpr ⟨_, hm, rfl⟩)
  exact Settings.get_of_get? (Settings.get?_of_mem (nodup_keys_entries h.regular) (List.mem_map.mpr ⟨_, hpart, rfl⟩))

theorem Writable.mem (h : Writable raw) {name : String} {contents : Value}
    (hm : (.text name, contents) ∈ raw.parts.map Part.entry) :
    (isHeading name = true ∧ ∃ e ∈ raw.profiles.toList, contents = .map e.2) ∨
      (name = "read-database" ∧ contents = .map raw.readProfile) ∨
      (name ∈ resolvedHeadings ∧ name ≠ "read-database") ∨ ∃ x ∈ raw.extras, name = x.1 ∧ contents = .map x.2 := by
  obtain ⟨part, hpart, heq⟩ := List.mem_map.mp hm
  rw [Dump.Raw.parts, Database.written, List.mem_append, List.mem_append, Dump.Raw.front, Dump.Raw.back] at hpart
  rcases hpart with (hpart | hpart) | hpart
  · obtain ⟨e, he, rfl⟩ := List.mem_map.mp hpart
    cases List.mem_singleton.mp he
    cases heq
    exact .inr (.inr (.inl (by simp [resolvedHeadings])))
  · obtain ⟨⟨key, settings⟩, he, rfl⟩ := List.mem_map.mp hpart
    refine .inl ?_
    cases key with
    | none =>
      cases heq
      exact ⟨by decide, _, he, rfl⟩
    | some sub =>
      cases heq
      exact ⟨isHeading_label (h.clean _ he sub rfl), _, he, rfl⟩
  · obtain ⟨e, he, rfl⟩ := List.mem_map.mp hpart
    cases heq
    rcases List.mem_append.mp he with he | he
    · simp only [List.mem_cons, List.not_mem_nil, or_false] at he
      rcases he with rfl | rfl | rfl | rfl
      · exact .inr (.inl ⟨rfl, rfl⟩)
      · exact .inr (.inr (.inl (by simp [resolvedHeadings])))
      · exact .inr (.inr (.inl (by simp [resolvedHeadings])))
      · exact .inr (.inr (.inl (by simp [resolvedHeadings])))
    · obtain ⟨x, hx, rfl⟩ := List.mem_map.mp he
      exact .inr (.inr (.inr ⟨x, hx, rfl, rfl⟩))

/-! ## Retired settings -/

/-- Nothing that is written is retired. -/
structure Current (raw : Dump.Raw) : Prop where
  profiles : ∀ e ∈ raw.profiles.toList, Unretired e.2
  readProfile : Unretired raw.readProfile
  commandProcessing : ∀ key ∈ Retirement.commandProcessingKeys, raw.commandProcessing.has key = false
  globals : ∀ key ∈ Retirement.globalKeys, raw.globals.has key = false
  extras : ∀ block ∈ Retirement.blocks, (others raw.extras).has block.1 = false

theorem Writable.quiet (h : Writable raw) (hc : Current raw) : Retirement.Quiet (raw.parts.map Part.entry) where
  commandProcessing := by
    rw [h.get (by simp [Dump.Raw.front, Dump.Raw.back] : ("command-processing", Value.map raw.commandProcessing) ∈ _)]
    exact hc.commandProcessing
  databases := by
    intro name contents hm hname key hkey
    rcases h.mem hm with ⟨_, e, he, rfl⟩ | ⟨_, rfl⟩ | ⟨hres, hne⟩ | ⟨x, hx, rfl, _⟩
    · exact hc.profiles e he key hkey
    · exact hc.readProfile key hkey
    · have hplain : ∀ name ∈ resolvedHeadings, isHeading name = false := by decide
      rw [hplain name hres] at hname
      exact absurd hname (by simpa using hne)
    · have hother : x.1 ≠ "read-database" := fun heq => (h.other x hx).1 (heq ▸ by decide)
      rw [(h.other x hx).2] at hname
      exact absurd hname (by simpa using hother)
  globals := by
    rw [h.get (by simp [Dump.Raw.front] : ("global", Value.map raw.globals) ∈ _)]
    exact hc.globals
  blocks := by
    intro block hb
    have hblock : ∀ block ∈ Retirement.blocks, isHeading block.1 = false ∧ block.1 ∉ resolvedHeadings := by decide
    obtain ⟨hplain, hnot⟩ := hblock block hb
    rw [Bool.eq_false_iff, Ne, Settings.has_iff_mem_keys]
    intro hm
    obtain ⟨⟨_, contents⟩, he, rfl⟩ := List.mem_map.mp hm
    rcases h.mem he with ⟨hhead, _⟩ | ⟨hname, _⟩ | ⟨hres, _⟩ | ⟨x, hx, hname, _⟩
    · rw [hplain] at hhead
      cases hhead
    · exact hnot (hname ▸ by decide)
    · exact hnot hres
    · have hhas : (others raw.extras).has block.1 = true := by
        rw [Settings.has_iff_mem_keys, hname]
        exact List.mem_map_of_mem (List.mem_map_of_mem hx)
      rw [hc.extras block hb] at hhas
      cases hhas

end Stanza.Config
