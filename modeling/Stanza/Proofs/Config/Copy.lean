import Stanza.Proofs.Config.Written
import Stanza.Proofs.Logged.Failure

/-! # Copies of configurations

A copy holds the sections of the service and, before them, the other sections of the document as they were written but
for tuples, which are lists in it. Freezing what is copied gives back what is frozen in the configuration.
-/
namespace Stanza

/-! ## Tuples and lists -/

mutual

def Value.listed : Value → Value
  | .list items | .tuple items => .list (listedItems items)
  | .map entries => .map (listedEntries entries)
  | value => value
termination_by structural value => value

def listedItems : List Value → List Value
  | [] => []
  | item :: rest => item.listed :: listedItems rest
termination_by structural items => items

def listedEntries : List (Value × Value) → List (Value × Value)
  | [] => []
  | (key, value) :: rest => (key, value.listed) :: listedEntries rest
termination_by structural entries => entries

end

mutual

theorem thaw_freeze : (v : Value) → v.freeze.thaw = v.listed
  | .list items | .tuple items => congrArg Value.list (thawItems_freezeItems items)
  | .map entries => congrArg Value.map (thawEntries_freezeEntries entries)
  | .null | .bool _ | .int _ | .float _ | .text _ | .period _ | .span _ | .path _ | .moment _ | .foreign _ => rfl

theorem thawItems_freezeItems : (items : List Value) → thawItems (freezeItems items) = listedItems items
  | [] => rfl
  | item :: rest => congrArg₂ List.cons (thaw_freeze item) (thawItems_freezeItems rest)

theorem thawEntries_freezeEntries : (es : Settings) → thawEntries (freezeEntries es) = listedEntries es
  | [] => rfl
  | (key, value) :: es => congrArg₂ List.cons (congrArg (key, ·) (thaw_freeze value)) (thawEntries_freezeEntries es)

end

def Frozen (es : Settings) : Prop := ∃ raw, es = freezeEntries raw

theorem Frozen.freezeEntries_thawEntries {es : Settings} (h : Frozen es) : freezeEntries (thawEntries es) = es := by
  obtain ⟨raw, rfl⟩ := h
  exact Stanza.freezeEntries_thawEntries raw

theorem freezeEntries_toSettings (r : Section.Resolved Settings) :
    (r.map freezeEntries).toSettings = freezeEntries r.toSettings := by
  cases r with
  | sole settings => rfl
  | named results =>
    rw [freezeEntries_eq_map]
    simp only [Section.Resolved.map, Section.Resolved.toSettings, List.map_map]
    rfl

namespace Config

def namedBlocks (c : Config) : List (String × Settings) :=
  [("global", c.globals), ("developer", c.developer), ("database", c.database), ("read-database", c.readProfile),
    ("command-processing", c.commandProcessing), ("puppetdb", c.puppetdb)]

variable {document : Document} {c : Config}

/-- What a document with a configuration leaves in it: its other sections, and frozen blocks. -/
theorem frozen_of_ofDocument [Pattern.Compiler] {host : Host} (h : (ofDocument document host).result = .ok c) :
    (Settings.keys document).Nodup ∧ c.extra = freezeEntries (document.filter isExtra) ∧
      ∀ b ∈ c.namedBlocks, Frozen b.2 := by
  obtain ⟨sections, globals, databases, developer, commandProcessing, puppetdb, hi, hr, rfl⟩ := ofDocument_eq_ok_iff.mp h
  obtain ⟨_, rfl, hn⟩ := index_eq_self hi hr.databases
  refine ⟨hn, rfl, ?_⟩
  simp only [namedBlocks, List.forall_mem_cons, List.not_mem_nil, false_imp_iff, implies_true, and_true]
  exact ⟨⟨globals, rfl⟩, ⟨developer, rfl⟩, ⟨_, freezeEntries_toSettings databases.profiles⟩, ⟨databases.readProfile, rfl⟩,
    ⟨commandProcessing, rfl⟩, ⟨puppetdb, rfl⟩⟩

theorem mem_filter_isExtra {k v : Value} : (k, v) ∈ document.filter isExtra ↔
    ∃ name, k = .text name ∧ IsOther name ∧ (.text name, v) ∈ document := by
  rw [List.mem_filter]
  constructor
  · rintro ⟨hm, hextra⟩
    cases k with
    | text name => exact ⟨name, rfl, isExtra_text_iff.mp hextra, hm⟩
    | _ => cases hextra
  · rintro ⟨name, rfl, hother, hm⟩
    exact ⟨hm, isExtra_text_iff.mpr hother⟩

theorem mem_keys_filter_isExtra {k : Value} : k ∈ Settings.keys (document.filter isExtra) ↔
    ∃ name, k = .text name ∧ k ∈ Settings.keys document ∧ IsOther name := by
  rw [Settings.keys, List.mem_map]
  constructor
  · rintro ⟨⟨k, v⟩, hm, rfl⟩
    obtain ⟨name, rfl, hother, hm⟩ := mem_filter_isExtra.mp hm
    exact ⟨name, rfl, List.mem_map_of_mem hm, hother⟩
  · rintro ⟨name, rfl, hk, hother⟩
    obtain ⟨⟨_, v⟩, hm, rfl⟩ := List.mem_map.mp hk
    exact ⟨_, mem_filter_isExtra.mpr ⟨name, rfl, hother, hm⟩, rfl⟩

/-- No other section is called like a block. -/
theorem nodup_keys_append_blockNames (hn : (Settings.keys document).Nodup) :
    (Settings.keys (document.filter isExtra) ++ blockNames.map Value.text).Nodup := by
  refine List.nodup_append'.mpr ⟨(List.filter_sublist.map _).nodup hn, by simp [blockNames], fun k hk hb => ?_⟩
  obtain ⟨name, rfl, _, hother⟩ := mem_keys_filter_isExtra.mp hk
  obtain ⟨block, hblock, he⟩ := List.mem_map.mp hb
  exact hother.not_mem_blockNames (Value.text.inj he ▸ hblock)

/-- Copied sections: the other ones, then the blocks. -/
def copied (extra : Settings) (blocks : List (String × Settings)) : Settings :=
  listedEntries extra ++ blocks.map fun b => (.text b.1, .map (thawEntries b.2))

theorem keys_copied (extra : Settings) (blocks : List (String × Settings)) : Settings.keys (copied extra blocks) =
    Settings.keys extra ++ blocks.map (Value.text ∘ Prod.fst) := by
  rw [copied, ← thawEntries_freezeEntries, thawEntries_eq_map, Settings.keys, List.map_append, ← Settings.keys,
    Settings.keys_map, keys_freezeEntries, List.map_map]
  rfl

/-- The other sections come first, in the order of the document, and nothing is laid over them. -/
theorem copy_eq_copied (hn : (Settings.keys document).Nodup) (he : c.extra = freezeEntries (document.filter isExtra)) :
    c.copy = copied (document.filter isExtra) c.namedBlocks := by
  have hkeys := keys_copied (document.filter isExtra) c.namedBlocks
  have htext : Settings.TextKeys (copied (document.filter isExtra) c.namedBlocks) := by
    intro k hk
    rw [hkeys] at hk
    rcases List.mem_append.mp hk with hk | hk
    · obtain ⟨name, hname, _⟩ := mem_keys_filter_isExtra.mp hk
      exact ⟨name, hname⟩
    · obtain ⟨b, _, rfl⟩ := List.mem_map.mp hk
      exact ⟨b.1, rfl⟩
  have hnodup : (Settings.keys (copied (document.filter isExtra) c.namedBlocks)).Nodup := by
    rw [hkeys]
    exact nodup_keys_append_blockNames hn
  have hcopy : c.copy = Settings.overlay (listedEntries (document.filter isExtra))
      (c.namedBlocks.map fun b => (.text b.1, .map (thawEntries b.2))) := by
    rw [copy, he, thawEntries_freezeEntries]
    rfl
  rw [hcopy, (Settings.distinct_of_nodup_keys hnodup htext).overlay_eq_append, copied]

/-- A configuration keeps all sections of its document. The copy has a block for each section of the service and, apart
from these, the sections that are neither one of them nor called like a database. They are copied with lists for tuples,
and freezing a copied section gives what the configuration holds. -/
theorem copy_conserved [Pattern.Compiler] {host : Host} (h : (ofDocument document host).result = .ok c) :
    (Settings.keys c.copy).Nodup ∧
    (∀ k, k ∈ Settings.keys c.copy ↔ (∃ name ∈ blockNames, k = .text name) ∨
      ∃ name, k = .text name ∧ k ∈ Settings.keys document ∧ name ∉ resolvedHeadings ∧ Database.isHeading name = false) ∧
    (∀ name value, (.text name, value) ∈ document → name ∉ resolvedHeadings → Database.isHeading name = false →
      name ∉ blockNames ∧ c.copy.get? name = some value.listed ∧ c.extra.get? name = some value.listed.freeze) ∧
    ∀ b ∈ c.namedBlocks, ∃ copied, c.copy.get? b.1 = some copied ∧ copied.freeze = .map b.2 := by
  obtain ⟨hn, he, hfrozen⟩ := frozen_of_ofDocument h
  have hcopy := copy_eq_copied hn he
  have hkeys : Settings.keys c.copy = Settings.keys (document.filter isExtra) ++ blockNames.map Value.text := by
    rw [hcopy, keys_copied]
    rfl
  have hnodup : (Settings.keys c.copy).Nodup := hkeys ▸ nodup_keys_append_blockNames hn
  refine ⟨hnodup, fun k => ?_, fun name value hm hr hd => ?_, fun b hb => ?_⟩
  · rw [hkeys, List.mem_append, or_comm]
    refine or_congr ?_ mem_keys_filter_isExtra
    simp only [List.mem_map, eq_comm]
  · have hextra : c.extra.get? name = some value.freeze := by
      have hfound : Settings.get? (document.filter isExtra) name = some value :=
        Settings.get?_of_mem ((List.filter_sublist.map _).nodup hn) (mem_filter_isExtra.mpr ⟨name, rfl, ⟨hr, hd⟩, hm⟩)
      rw [he, get?_freezeEntries, hfound]
      rfl
    have hblock : name ∉ blockNames := IsOther.not_mem_blockNames ⟨hr, hd⟩
    refine ⟨hblock, ?_, ?_⟩
    · rw [get?_copy_of_not_mem c hblock, hextra, Option.map_some, thaw_freeze]
    · rw [hextra, ← thaw_freeze, freeze_thaw_freeze]
  · refine ⟨.map (thawEntries b.2), Settings.get?_of_mem hnodup ?_, ?_⟩
    · rw [hcopy]
      exact List.mem_append_right _ (List.mem_map_of_mem hb)
    · exact congrArg Value.map (hfrozen b hb).freezeEntries_thawEntries

/-- A section that nothing resolves, with tuples in a tuple and in a list. -/
theorem copy_conserved_tuples : ∃ c,
    (ofDocument [(.text "nrepl", .map [(.text "ports", .tuple [.int 1, .list [.tuple []], .tuple [.tuple []]])]),
      (.text "database", .map [(.text "subname", .text "//localhost/db")])] ⟨4, 8192⟩).result = .ok c ∧
    Value.text "nrepl" ∈ Settings.keys c.copy ∧
    c.copy.get? "nrepl" = some (.map [(.text "ports", .list [.int 1, .list [.list []], .list [.list []]])]) ∧
    ∃ copied, c.copy.get? "database" = some copied ∧ copied.freeze = .map c.database := by
  let document : Document :=
    [(.text "nrepl", .map [(.text "ports", .tuple [.int 1, .list [.tuple []], .tuple [.tuple []]])]),
      (.text "database", .map [(.text "subname", .text "//localhost/db")])]
  have hresolved : (ofDocument document ⟨4, 8192⟩).result.succeedsWith (fun _ => true) = true := by
    decide +kernel
  obtain ⟨c, hc, _⟩ := Except.succeedsWith_iff.mp hresolved
  obtain ⟨_, hkeys, hothers, hblocks⟩ := copy_conserved hc
  have hname : "nrepl" ∉ resolvedHeadings ∧ Database.isHeading "nrepl" = false := by decide
  refine ⟨c, hc, (hkeys _).mpr (.inr ⟨"nrepl", rfl, by simp [document, Settings.keys], hname⟩), ?_, ?_⟩
  · exact (hothers "nrepl" _ List.mem_cons_self hname.1 hname.2).2.1
  · exact hblocks ("database", c.database) (by simp [namedBlocks])

end Config

end Stanza
