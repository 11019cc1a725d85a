import Stanza.Config.Basic
import Stanza.Proofs.Database.Cascade

/-! # The profiles of a document

Whatever a document says, every profile for writing that comes out of it is well-formed.
-/
namespace Stanza.Database

section

variable [Pattern.Compiler]

/-- The patterns of a profile are found under its name. -/
theorem exists_config_blacklist {profiles : Section.Resolved Settings} {c : Config}
    (hc : c.profiles = profiles.map freezeEntries)
    (hall : ∀ e ∈ profiles.toList, ∃ patterns, blacklist (freezeEntries e.2) = .ok patterns)
    {e : Option String × Settings} (he : e ∈ profiles.toList) : ∃ patterns, c.blacklist e.1 = .ok patterns := by
  cases profiles with
  | sole profile =>
    cases List.mem_singleton.mp he
    rw [Config.blacklist, Config.primary, hc]
    exact hall _ he
  | named results =>
    obtain ⟨⟨name, result⟩, hr, rfl⟩ := List.mem_map.mp he
    have hdatabase : c.database = results.map fun p => (.text p.1, .map (freezeEntries p.2)) := by
      rw [Config.database, hc, Section.Resolved.map, Section.Resolved.toSettings, List.map_map]
      rfl
    obtain ⟨v, hv⟩ : ∃ v, c.database.get? name = some v := by
      rw [← Settings.has_iff_get?, Settings.has_iff_mem_keys, hdatabase]
      exact List.mem_map.mpr ⟨_, List.mem_map_of_mem hr, rfl⟩
    have hmem := Settings.mem_of_get? hv
    rw [hdatabase] at hmem
    obtain ⟨p, hp, hpe⟩ := List.mem_map.mp hmem
    cases hpe
    simp only [Config.blacklist, hv]
    exact hall (some p.1, p.2) (List.mem_map_of_mem hp)

/-- Every profile of a document is well-formed, and the patterns of its blacklist are there once it is frozen. -/
theorem resolve_wellFormed {document : Document} {r : Resolution} (h : (resolve document).result = .ok r)
    {name : Option String} {profile : Settings} (hp : (name, profile) ∈ r.profiles.toList) :
    WellFormed profile ∧
      ∀ c : Config, c.profiles = r.profiles.map freezeEntries → ∃ patterns, c.blacklist name = .ok patterns := by
  refine ⟨wellFormed_of_fixedUp (fixedUp_of_resolve h hp) (validate_of_resolve h hp), fun c hc => ?_⟩
  refine exists_config_blacklist hc (fun e he => ?_) hp
  exact exists_blacklist_freezeEntries (validate_eq_ok_iff.mp (validate_of_resolve h he)).2.2

end

/-- A user and a password on their own make up a profile. -/
theorem resolve_wellFormed_login :
    ∃ r profile,
      (resolve [(.text "database", .map [(.text "subname", .text "//localhost/db"), (.text "username", .text "db"),
        (.text "password", .text "secret")])]).result = .ok r ∧
      (none, profile) ∈ r.profiles.toList ∧ WellFormed profile ∧
      ∀ c : Config, c.profiles = r.profiles.map freezeEntries → ∃ patterns, c.blacklist none = .ok patterns := by
  obtain ⟨profile, ha⟩ : ∃ profile, Accepts [(.text "subname", .text "//localhost/db"), (.text "username", .text "db"),
    (.text "password", .text "secret")] profile := ⟨_, rfl, rfl⟩
  have h := resolve_flat_eq_ok_iff.mpr ⟨profile, ha, rfl⟩
  have hp : (none, profile) ∈ (Section.Resolved.sole profile).toList := List.mem_singleton_self _
  exact ⟨_, profile, h, hp, resolve_wellFormed h hp⟩

end Stanza.Database
