import Stanza.Proofs.Database.Resolved

/-! # Database sections read again

Profiles that have been written out as sections of a document are resolved to themselves, with their settings in some
order: there is nothing left to lay over each other and nothing to fix up.
-/
namespace Stanza.Database

open Schema Section

/-! ## Documents of profiles -/

def Part.profile : Option String → Settings → Part
  | none, settings => .own settings
  | some name, settings => .sub name settings

def written (front : List (String × Value)) (raws : Resolved Settings) (back : List (String × Value)) : List Part :=
  front.map (fun e => .plain e.1 e.2) ++ raws.toList.map (fun e => .profile e.1 e.2) ++ back.map fun e => .plain e.1 e.2

def entries (sections : List (String × Value)) : Settings := sections.map fun e => (.text e.1, e.2)

variable {front back : List (String × Value)} {raws : Resolved Settings}

theorem filterMap_plain?_written (front : List (String × Value)) (raws : Resolved Settings)
    (back : List (String × Value)) : (written front raws back).filterMap Part.plain? = entries (front ++ back) := by
  have hprofiles : (raws.toList.map fun e => Part.profile e.1 e.2).filterMap Part.plain? = [] := by
    refine List.filterMap_eq_nil_iff.mpr fun part hp => ?_
    obtain ⟨⟨name, _⟩, _, rfl⟩ := List.mem_map.mp hp
    cases name <;> rfl
  rw [written, List.filterMap_append, List.filterMap_append, hprofiles]
  simp [entries, List.filterMap_map, Function.comp_def, Part.plain?]

theorem filterMap_written {α : Type} {f : Part → Option α} (hf : ∀ name contents, f (.plain name contents) = none)
    (front : List (String × Value)) (raws : Resolved Settings) (back : List (String × Value)) :
    (written front raws back).filterMap f = (raws.toList.map fun e => Part.profile e.1 e.2).filterMap f := by
  have hnil : ∀ sections : List (String × Value), (sections.map fun e => Part.plain e.1 e.2).filterMap f = [] := by
    intro sections
    refine List.filterMap_eq_nil_iff.mpr fun part hp => ?_
    obtain ⟨e, _, rfl⟩ := List.mem_map.mp hp
    exact hf e.1 e.2
  rw [written, List.filterMap_append, List.filterMap_append, hnil, hnil, List.nil_append, List.append_nil]

theorem filterMap_own?_written (front : List (String × Value)) (raws : Resolved Settings)
    (back : List (String × Value)) : (written front raws back).filterMap Part.own? = match raws with
      | .sole raw => [raw]
      | .named _ => [] := by
  rw [filterMap_written fun _ _ => rfl]
  cases raws with
  | sole raw => rfl
  | named raws => simp [Resolved.toList, List.filterMap_map, Function.comp_def, Part.own?, Part.profile]

theorem filterMap_sub?_written (front : List (String × Value)) (raws : Resolved Settings)
    (back : List (String × Value)) : (written front raws back).filterMap Part.sub? = match raws with
      | .sole _ => []
      | .named raws => raws := by
  rw [filterMap_written fun _ _ => rfl]
  cases raws with
  | sole raw => rfl
  | named raws => simp [Resolved.toList, List.filterMap_map, Function.comp_def, Part.sub?, Part.profile]

theorem regular_written (hclean : ∀ e ∈ raws.toList, ∀ name, e.1 = some name → CleanName name)
    (hnames : raws.names.Nodup) (hplains : (Settings.keys (entries (front ++ back))).Nodup)
    (hplain : ∀ e ∈ front ++ back, isHeading e.1 = false) : Regular (written front raws back) where
  own := by
    rw [filterMap_own?_written]
    cases raws <;> simp
  subs := by
    rw [filterMap_sub?_written]
    cases raws with
    | sole _ => exact List.nodup_nil
    | named raws => exact hnames
  clean := by
    rw [filterMap_sub?_written]
    cases raws with
    | sole _ => exact fun _ h => absurd h List.not_mem_nil
    | named raws => exact fun e he => hclean (some e.1, e.2) (List.mem_map_of_mem he) e.1 rfl
  plains := by rwa [filterMap_plain?_written]
  plain := by
    intro name contents hm
    have hentry : (Value.text name, contents) ∈ (written front raws back).filterMap Part.plain? :=
      List.mem_filterMap.mpr ⟨_, hm, rfl⟩
    rw [filterMap_plain?_written] at hentry
    obtain ⟨e, he, heq⟩ := List.mem_map.mp hentry
    exact Value.text.inj (congrArg Prod.fst heq) ▸ hplain e he

/-! ## Profiles again -/

theorem exists_fixUp_of_restores {raw profile : Settings} (hr : Dump.Restores writeDatabase raw profile)
    (hf : FixedUp profile) :
    ∃ again, (raw.Distinct ∧ ∀ name, (fixUp name raw).result = .ok again) ∧ again.SameMapping profile := by
  obtain ⟨again, hagain, hsame⟩ := hr.again
  refine ⟨again, ⟨hr.distinct, fun name => fixUp_of_fixedUp (hf.of_sameMapping hsame) ?_⟩, hsame⟩
  rw [hagain]

/-- Profiles with nothing to fix up are what their document is resolved to. -/
theorem resolve_database_written {agains : Resolved Settings} (hne : raws.toList ≠ [])
    (h : Resolved.Rel (fun raw again => raw.Distinct ∧ ∀ name, (fixUp name raw).result = .ok again) raws agains) :
    ((cascade (Part.database (written front raws back))).resolve fun name _ settings => fixUp name settings).result
      = .ok agains := by
  rw [Part.database, filterMap_own?_written, filterMap_sub?_written, Section.resolve_eq_ok_iff]
  cases h with
  | sole h => exact ⟨_, h.2 none, rfl⟩
  | @named raws agains h =>
    -- nothing is written for the section itself, so no subsection inherits anything
    obtain ⟨wide, hwide⟩ : ∃ wide, (fixUp none []).result = .ok wide := ⟨_, rfl⟩
    refine ⟨wide, hwide, ?_⟩
    rw [if_pos]
    · refine ⟨agains, ?_, rfl⟩
      rw [cascade, List.forall₂_map_left_iff]
      refine h.imp fun e p hp => ⟨hp.1, ?_⟩
      change (fixUp (some e.1) (Settings.overlay [] e.2)).result = .ok p.2
      rw [hp.2.1.overlay_nil]
      exact hp.2.2 _
    · simpa [cascade, hasSubsections, Resolved.toList] using hne

/-- A document of written profiles is resolved to the profiles that were written. -/
theorem exists_resolve_written [Pattern.Compiler] {profiles : Resolved Settings} {rawRead read : Settings}
    (hregular : Regular (written front raws back)) (hne : profiles.toList ≠ [])
    (hrel : Resolved.Rel (Dump.Restores writeDatabase) raws profiles)
    (hprofiles : ∀ e ∈ profiles.toList, FixedUp e.2 ∧ validate e.2 e.1 = .ok ())
    (hread : Readable read) (hraw : Dump.Restores Schema.database rawRead read)
    (hmem : ("read-database", .map rawRead) ∈ front ++ back) :
    ∃ r, (resolve ((written front raws back).map Part.entry)).result = .ok r ∧
      Resolved.Rel Settings.SameMapping r.profiles profiles ∧ r.readProfile.SameMapping read := by
  obtain ⟨agains, hfix, hsame⟩ := (hrel.imp_of_mem fun raw e he h =>
    exists_fixUp_of_restores h (hprofiles e he).1).exists_between
  have hrne : raws.toList ≠ [] := by
    intro hnil
    have hrows := hrel.toList
    rw [hnil] at hrows
    exact hne (List.forall₂_nil_left_iff.mp hrows)
  obtain ⟨again, hagain, hsameRead⟩ := hraw.again
  refine ⟨⟨agains, again⟩, (resolve_parts_eq_ok_iff hregular).mpr ⟨resolve_database_written hrne hfix, ?_, ?_⟩,
    hsame, hsameRead⟩
  · intro e he
    obtain ⟨d, hd, hname, hp⟩ := hsame.toList.exists_of_mem_left he
    rw [validate_of_sameMapping hp, hname, (hprofiles d hd).2]
  · have hget : Settings.get ((written front raws back).filterMap Part.plain?) "read-database" = .map rawRead := by
      rw [filterMap_plain?_written]
      have hplains := hregular.plains
      rw [filterMap_plain?_written] at hplains
      exact Settings.get_of_get? (Settings.get?_of_mem hplains (List.mem_map_of_mem hmem))
    have hagainRead := hread.of_sameMapping hsameRead
    rw [hget]
    exact readProfileOf_eq_ok_iff.mpr ⟨by rw [hagain], hagainRead.subname, hagainRead.patterns⟩

end Stanza.Database
