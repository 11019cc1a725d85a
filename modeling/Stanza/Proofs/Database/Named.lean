import Stanza.Proofs.Database.Cascade
import Stanza.Proofs.Header.Canonical
import Stanza.Proofs.Section.Gathered

/-! # Databases by their names

In a document that can be grouped the parts whose labels are headings have names that can be written, so that each of
them becomes a profile under its name.
-/
namespace Stanza.Database

open Section

/-! ## Labels -/

theorem prefix_of_append_cons {p xs ys : List Char} {c : Char} (hc : c ∉ p) (h : p <+: xs ++ c :: ys) : p <+: xs := by
  rcases List.prefix_or_prefix_of_prefix h (List.prefix_append xs (c :: ys)) with hp | ⟨tail, rfl⟩
  · exact hp
  · cases tail with
    | nil => rw [List.append_nil]
    | cons d tail =>
      rw [List.prefix_append_right_inj, List.cons_prefix_cons] at h
      exact absurd (by simp [h.1]) hc

/-- No other section has a subsection that is called like a database. -/
theorem isHeading_of_label {header : Header} (h : isHeading header.label = true) : isHeading header.name = true := by
  rcases header with ⟨name, _ | sub⟩
  · exact h
  · have hl : (Header.label ⟨name, some sub⟩).toList = name.toList ++ ' ' :: (Text.quoted sub).toList := by
      simp [Header.label]
    simp only [isHeading, hl, Bool.and_eq_true, Bool.not_eq_true', List.contains_eq_mem, decide_eq_false_iff_not] at h ⊢
    refine ⟨?_, fun hm => h.2 (List.mem_append_left _ hm)⟩
    exact List.isPrefixOf_iff_prefix.mpr (prefix_of_append_cons (by decide) (List.isPrefixOf_iff_prefix.mp h.1))

theorem cleanName_of_groupable {document : Document} (hg : Groupable isHeading document) {name : String}
    (hm : .text (label (some name)) ∈ Settings.keys document) (hn : '\n' ∉ name.toList) : CleanName name := by
  have hk := isHeading_label_iff.mpr hn
  obtain ⟨header, hp⟩ := hg.parses _ hk hm
  have heq : header = { name := "database", subsection := some name } :=
    Header.eq_of_parse_format (by simp)
      (List.all_eq_true.mp (by decide : "database".toList.all Header.isNameChar = true)) hp
  exact cleanName_of_parse hk hp (by rw [heq])

/-! ## Parts of a document that is resolved -/

variable {parts : List Part}

/-- The entries of some of the parts, in order. -/
theorem keys_sublist {α : Type} {f : Part → Option α} {key : α → Value}
    (hf : ∀ part a, f part = some a → key a = part.entry.1) :
    ((parts.filterMap f).map key).Sublist (Settings.keys (parts.map Part.entry)) := by
  induction parts with
  | nil => exact .slnil
  | cons part parts ih =>
    rw [List.filterMap_cons]
    split
    · exact ih.cons _
    · next a ha =>
      rw [List.map_cons, hf part a ha]
      exact ih.cons_cons _

/-- Parts are regular if their entries stand once and can be grouped. -/
theorem regular_of_groupable (hn : (Settings.keys (parts.map Part.entry)).Nodup)
    (hg : Groupable isHeading (parts.map Part.entry))
    (hsub : ∀ name settings, Part.sub name settings ∈ parts → '\n' ∉ name.toList)
    (hplain : ∀ name contents, Part.plain name contents ∈ parts → isHeading name = false) : Regular parts where
  own := by
    have hs : ((parts.filterMap Part.own?).map fun _ => Value.text "database").Sublist _ :=
      keys_sublist (fun part a ha => by cases part <;> cases ha; rfl)
    have hnodup := hs.nodup hn
    rw [List.map_const', List.nodup_replicate] at hnodup
    exact hnodup
  subs := by
    have hs : ((parts.filterMap Part.sub?).map fun e => Value.text (label (some e.1))).Sublist _ :=
      keys_sublist (fun part a ha => by cases part <;> cases ha; rfl)
    refine List.Nodup.of_map (fun name => Value.text (label (some name))) ?_
    rw [List.map_map]
    exact hs.nodup hn
  clean := by
    intro e he
    obtain ⟨part, hm, hpart⟩ := List.mem_filterMap.mp he
    cases part with
    | sub name settings =>
      cases hpart
      exact cleanName_of_groupable hg (List.mem_map_of_mem (List.mem_map_of_mem hm)) (hsub name settings hm)
    | _ => cases hpart
  plains := (keys_sublist (fun part a ha => by cases part <;> cases ha; rfl)).nodup hn
  plain := hplain

/-! ## Profiles by name -/

theorem get?_toSettings {r : Resolved Settings} (hn : r.names.Nodup) {name : String} {profile : Settings}
    (hm : (some name, profile) ∈ r.toList) : r.toSettings.get? name = some (.map profile) := by
  cases r with
  | sole result => cases List.mem_singleton.mp hm
  | named results =>
    obtain ⟨p, hp, he⟩ := List.mem_map.mp hm
    cases he
    refine Settings.get?_of_mem ?_ (List.mem_map_of_mem hp)
    have hkeys := List.Nodup.map (fun _ _ => Value.text.inj) hn
    rw [Resolved.names, List.map_map] at hkeys
    rw [Settings.keys, Resolved.toSettings, List.map_map]
    exact hkeys

/-- Every subsection is resolved under its name, and there are no other names. -/
theorem exists_of_resolve_cascade [Pattern.Compiler] {s : Section} {r : Resolved Settings}
    (h : ((cascade s).resolve fun name _ settings => fixUp name settings).result = .ok r)
    (hv : ∀ e ∈ r.toList, validate e.2 e.1 = .ok ()) : r.names = s.subsections.map Prod.fst ∧
      ∀ t ∈ s.subsections, ∃ profile, Accepts (s.settings.overlay t.2) profile ∧ (some t.1, profile) ∈ r.toList := by
  obtain ⟨_, _, hr⟩ := Section.resolve_eq_ok_iff.mp h
  split at hr
  · obtain ⟨results, hf, rfl⟩ := hr
    rw [cascade, List.forall₂_map_left_iff] at hf
    constructor
    · rw [Resolved.names, eq_comm, ← List.forall₂_eq_eq_eq, List.forall₂_map_left_iff, List.forall₂_map_right_iff]
      exact hf.imp fun _ _ h => h.1
    · intro t ht
      obtain ⟨p, hp, hname, hfix⟩ := hf.exists_of_mem_left ht
      have hm : (some t.1, p.2) ∈ (Resolved.named results).toList := List.mem_map.mpr ⟨p, hp, by rw [hname]⟩
      exact ⟨p.2, ⟨(result_fixUp_congr _ _).mp hfix, (validate_congr _ _).mp (hv _ hm)⟩, hm⟩
  · next hs =>
    have hnil : s.subsections = [] := by simpa [cascade, hasSubsections] using hs
    cases hr
    rw [hnil]
    exact ⟨rfl, fun t ht => absurd ht List.not_mem_nil⟩

end Stanza.Database
