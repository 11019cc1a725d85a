import Stanza.Database.Resolution
import Stanza.Proofs.Database.Profile
import Stanza.Proofs.Section

/-! # When database sections are resolved

The grouped document, the profiles, the checks of each profile and the profile for reading, one after the other.
-/
namespace Stanza.Database

variable [Pattern.Compiler]

theorem resolve_eq_ok_iff {document : Document} {r : Resolution} :
    (resolve document).result = .ok r ↔ ∃ tree, Section.coalesce isHeadingValue document = .ok tree ∧
      ((cascade (tree.node "database")).resolve fun name _ settings => fixUp name settings).result = .ok r.profiles ∧
      (∀ e ∈ r.profiles.toList, validate e.2 e.1 = .ok ()) ∧
      (readProfile (plainAt tree "read-database") (.map (r.profiles.primary?.getD []))).result = .ok r.readProfile := by
  simp only [resolve, Logged.result_bind_eq_ok_iff, Logged.result_lift, Logged.result_warn, Logged.result_pure]
  refine exists_congr fun tree => and_congr_right fun _ => ?_
  constructor
  · rintro ⟨_, _, profiles, hp, _, hv, given, hr, h⟩
    cases h
    exact ⟨hp, Logged.result_forIn_eq_ok_iff.mp hv, hr⟩
  · rintro ⟨hp, hv, hr⟩
    exact ⟨(), trivial, _, hp, ⟨⟩, Logged.result_forIn_eq_ok_iff.mpr hv, _, hr, rfl⟩

theorem fixedUp_of_resolve {document : Document} {r : Resolution} (h : (resolve document).result = .ok r)
    {e : Option String × Settings} (he : e ∈ r.profiles.toList) : FixedUp e.2 := by
  obtain ⟨_, _, hp, _, _⟩ := resolve_eq_ok_iff.mp h
  obtain ⟨_, hf⟩ := Section.forall₂_of_resolve hp
  obtain ⟨_, _, _, hfix⟩ := hf.exists_of_mem_right he
  exact fixedUp_of_fixUp hfix

theorem validate_of_resolve {document : Document} {r : Resolution} (h : (resolve document).result = .ok r)
    {e : Option String × Settings} (he : e ∈ r.profiles.toList) : validate e.2 e.1 = .ok () := by
  obtain ⟨_, _, _, hv, _⟩ := resolve_eq_ok_iff.mp h
  exact hv e he

end Stanza.Database
