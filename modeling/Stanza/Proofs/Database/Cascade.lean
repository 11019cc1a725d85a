import Stanza.Proofs.Database.Grouping
import Stanza.Proofs.Database.Reading
import Stanza.Proofs.Database.WellFormed

/-! # The cascade and flat documents

A subsection is resolved as a document with nothing but its settings laid over those of the section would be. No
subsection has a part in what becomes of another one.
-/
namespace Stanza.Database

open Schema Section

def isControl (c : Char) : Bool := c.toNat < 0x20 || c.toNat == 0x7f

theorem cleanName_of_isControl {name : String} (h : name.toList.any isControl = false) : CleanName name := by
  intro c hc
  have hcontrol := Bool.eq_false_iff.mpr (List.any_eq_false.mp h c hc)
  simp only [isControl, Bool.or_eq_false_iff, decide_eq_false_iff_not, beq_eq_false_iff_ne] at hcontrol
  refine ⟨?_, ?_⟩
  · simp only [Header.isForbidden, Bool.or_eq_false_iff, Bool.and_eq_false_iff, decide_eq_false_iff_not,
      beq_eq_false_iff_ne]
    omega
  · rintro rfl
    exact hcontrol.1 (by decide)

/-! ## Documents -/

/-- A document with subsections before and after the section itself. -/
def parts (before : List (String × Settings)) (own : Option Settings) (after : List (String × Settings)) : List Part :=
  before.map (fun e => .sub e.1 e.2) ++ own.toList.map .own ++ after.map fun e => .sub e.1 e.2

/-- The document with the given settings for the section and for subsections before and after it. -/
def cascaded (before : List (String × Settings)) (own : Option Settings) (after : List (String × Settings)) : Document :=
  (parts before own after).map Part.entry

/-- The document with nothing but settings of the section itself. -/
def flat (settings : Settings) : Document := cascaded [] (some settings) []

theorem filterMap_own? (before after : List (String × Settings)) (own : Option Settings) :
    (parts before own after).filterMap Part.own? = own.toList := by
  simp [parts, List.filterMap_map, Function.comp_def, Part.own?]

theorem filterMap_sub? (before after : List (String × Settings)) (own : Option Settings) :
    (parts before own after).filterMap Part.sub? = before ++ after := by
  simp [parts, List.filterMap_map, Function.comp_def, Part.sub?]

theorem filterMap_plain? (before after : List (String × Settings)) (own : Option Settings) :
    (parts before own after).filterMap Part.plain? = [] := by
  simp [parts, List.filterMap_map, Function.comp_def, Part.plain?]

theorem regular_parts {before after : List (String × Settings)} (own : Option Settings)
    (hn : ((before ++ after).map Prod.fst).Nodup) (hc : ∀ e ∈ before ++ after, CleanName e.1) :
    Regular (parts before own after) := by
  refine ⟨?_, ?_, ?_, ?_, ?_⟩
  · rw [filterMap_own?]
    exact Option.length_toList_le
  · rwa [filterMap_sub?]
  · rwa [filterMap_sub?]
  · rw [filterMap_plain?]
    exact List.nodup_nil
  · intro name contents hm
    have hp : (Value.text name, contents) ∈ (parts before own after).filterMap Part.plain? :=
      List.mem_filterMap.mpr ⟨_, hm, rfl⟩
    rw [filterMap_plain?] at hp
    cases hp

theorem database_parts (before after : List (String × Settings)) (own : Option Settings) :
    Part.database (parts before own after) = ⟨own.getD [], before ++ after⟩ := by
  rw [Part.database, filterMap_own?, filterMap_sub?]
  cases own <;> rfl

/-! ## Names have no part in what is accepted -/

theorem result_fixUp_congr (name other : Option String) {settings profile : Settings} :
    (fixUp name settings).result = .ok profile ↔ (fixUp other settings).result = .ok profile := by
  simp only [fixUp_eq_ok_iff, resolveSection_eq_ok_iff]

section

variable [Pattern.Compiler]

theorem validate_congr (name other : Option String) {profile : Settings} :
    validate profile name = .ok () ↔ validate profile other = .ok () := by
  simp only [validate_eq_ok_iff, checkSubname_eq_ok_iff]

def Accepts (settings profile : Settings) : Prop :=
  (fixUp none settings).result = .ok profile ∧ validate profile none = .ok ()

theorem Accepts.deriveReadProfile {settings profile : Settings} (h : Accepts settings profile) :
    deriveReadProfile profile = .ok (derived profile) :=
  deriveReadProfile_of_sound (fixedUp_of_fixUp h.1).sound

/-- Without a profile for reading in the document. -/
theorem resolve_cascaded_eq_ok_iff {before after : List (String × Settings)} {own : Option Settings}
    (hn : ((before ++ after).map Prod.fst).Nodup) (hc : ∀ e ∈ before ++ after, CleanName e.1) {r : Resolution} :
    (resolve (cascaded before own after)).result = .ok r ↔
      ((cascade ⟨own.getD [], before ++ after⟩).resolve fun name _ settings => fixUp name settings).result
        = .ok r.profiles ∧
      (∀ e ∈ r.profiles.toList, validate e.2 e.1 = .ok ()) ∧
      deriveReadProfile (r.profiles.primary?.getD []) = .ok r.readProfile := by
  rw [cascaded, resolve_parts_eq_ok_iff (regular_parts own hn hc), database_parts, filterMap_plain?]
  rfl

theorem resolve_flat_eq_ok_iff {settings : Settings} {r : Resolution} :
    (resolve (flat settings)).result = .ok r ↔
      ∃ profile, Accepts settings profile ∧ ⟨.sole profile, derived profile⟩ = r := by
  rw [flat, resolve_cascaded_eq_ok_iff (by simp) (by simp), Section.resolve_eq_ok_iff]
  constructor
  · rintro ⟨⟨profile, hp, hr⟩, hv, hd⟩
    rcases r with ⟨profiles, given⟩
    cases (hr : Resolved.sole profile = profiles)
    have ha : Accepts settings profile := ⟨hp, hv (none, profile) (List.mem_singleton_self _)⟩
    cases ha.deriveReadProfile.symm.trans hd
    exact ⟨profile, ha, rfl⟩
  · rintro ⟨profile, ha, rfl⟩
    refine ⟨⟨profile, ha.1, rfl⟩, fun e he => ?_, ha.deriveReadProfile⟩
    cases List.mem_singleton.mp he
    exact ha.2

/-- Each subsection is resolved like the flat document of its settings, whatever the others hold. -/
theorem resolve_subsections_eq_ok_iff {before after : List (String × Settings)} {own : Option Settings}
    (hn : ((before ++ after).map Prod.fst).Nodup) (hc : ∀ e ∈ before ++ after, CleanName e.1)
    (hne : before ++ after ≠ []) {r : Resolution} :
    (resolve (cascaded before own after)).result = .ok r ↔
      (∃ wide, (fixUp none (own.getD [])).result = .ok wide) ∧
      ∃ results, List.Forall₂ (fun e p => e.1 = p.1 ∧ Accepts ((own.getD []).overlay e.2) p.2) (before ++ after) results ∧
        ⟨.named results, derived ((results.head?.map (·.2)).getD [])⟩ = r := by
  have hsub : (cascade ⟨own.getD [], before ++ after⟩).hasSubsections = true := by
    simpa [cascade, hasSubsections] using hne
  have hlayers : (cascade ⟨own.getD [], before ++ after⟩).subsections
      = (before ++ after).map fun e => (e.1, (own.getD []).overlay e.2) := rfl
  rw [resolve_cascaded_eq_ok_iff hn hc, Section.resolve_eq_ok_iff]
  simp only [hsub, if_true, hlayers, List.forall₂_map_left_iff]
  constructor
  · rintro ⟨⟨wide, hwide, results, hf, hr⟩, hv, hd⟩
    rcases r with ⟨profiles, given⟩
    cases hr
    have hall : List.Forall₂ (fun e p => e.1 = p.1 ∧ Accepts ((own.getD []).overlay e.2) p.2) (before ++ after) results := by
      refine hf.imp_of_mem fun e p hp h => ⟨h.1, (result_fixUp_congr _ _).mp h.2, ?_⟩
      exact (validate_congr _ _).mp (hv (some p.1, p.2) (List.mem_map_of_mem hp))
    refine ⟨⟨wide, hwide⟩, results, hall, ?_⟩
    generalize before ++ after = subs at hall hne
    cases hall with
    | nil => exact absurd rfl hne
    | cons hp _ => cases hp.2.deriveReadProfile.symm.trans hd; rfl
  · rintro ⟨⟨wide, hwide⟩, results, hall, rfl⟩
    refine ⟨⟨wide, hwide, results, hall.imp fun e p h => ⟨h.1, (result_fixUp_congr _ _).mp h.2.1⟩, rfl⟩, ?_, ?_⟩
    · intro e he
      obtain ⟨p, hp, rfl⟩ := List.mem_map.mp he
      obtain ⟨_, _, _, ha⟩ := hall.exists_of_mem_right hp
      exact (validate_congr _ _).mp ha.2
    · generalize before ++ after = subs at hall hne
      cases hall with
      | nil => exact absurd rfl hne
      | cons hp _ => exact hp.2.deriveReadProfile

/-- A document with subsections is accepted if the settings of the section are, and the flat document of each
subsection. Each profile is the one of its flat document, and the profile for reading that of the first one. -/
theorem cascade_eq_flat {before after : List (String × Settings)} {own : Option Settings}
    (hn : ((before ++ after).map Prod.fst).Nodup)
    (hc : ∀ e ∈ before ++ after, e.1.toList.any isControl = false) (hne : before ++ after ≠ []) :
    ((∃ r, (resolve (cascaded before own after)).result = .ok r) ↔
      (∃ wide, (fixUp none (own.getD [])).result = .ok wide) ∧
      ∀ e ∈ before ++ after, ∃ r, (resolve (flat ((own.getD []).overlay e.2))).result = .ok r) ∧
    ∀ r, (resolve (cascaded before own after)).result = .ok r →
      (∃ results, r.profiles = .named results ∧
        List.Forall₂ (fun e p => e.1 = p.1 ∧ ∃ f, (resolve (flat ((own.getD []).overlay e.2))).result = .ok f ∧
          f.profiles = .sole p.2) (before ++ after) results) ∧
      ∃ f, (resolve (flat ((own.getD []).overlay ((before ++ after).head hne).2))).result = .ok f ∧
        f.readProfile = r.readProfile := by
  have hclean : ∀ e ∈ before ++ after, CleanName e.1 := fun e he => cleanName_of_isControl (hc e he)
  have hsubs : ∀ r : Resolution, (resolve (cascaded before own after)).result = .ok r ↔ _ := fun r =>
    resolve_subsections_eq_ok_iff hn hclean hne
  refine ⟨⟨?_, ?_⟩, fun r hr => ?_⟩
  · rintro ⟨r, hr⟩
    obtain ⟨hwide, results, hall, rfl⟩ := (hsubs r).mp hr
    refine ⟨hwide, fun e he => ?_⟩
    obtain ⟨p, _, _, ha⟩ := hall.exists_of_mem_left he
    exact ⟨_, resolve_flat_eq_ok_iff.mpr ⟨p.2, ha, rfl⟩⟩
  · rintro ⟨hwide, hflat⟩
    have hex : ∀ e ∈ before ++ after, ∃ p : String × Settings, e.1 = p.1 ∧ Accepts ((own.getD []).overlay e.2) p.2 := by
      intro e he
      obtain ⟨f, hf⟩ := hflat e he
      obtain ⟨profile, ha, _⟩ := resolve_flat_eq_ok_iff.mp hf
      exact ⟨(e.1, profile), rfl, ha⟩
    obtain ⟨results, hall⟩ := List.exists_forall₂ hex
    exact ⟨_, (hsubs _).mpr ⟨hwide, results, hall, rfl⟩⟩
  · obtain ⟨_, results, hall, rfl⟩ := (hsubs r).mp hr
    refine ⟨⟨results, rfl, hall.imp fun e p h => ⟨h.1, _, resolve_flat_eq_ok_iff.mpr ⟨p.2, h.2, rfl⟩, rfl⟩⟩, ?_⟩
    clear hsubs hr hn hclean hc
    generalize before ++ after = subs at hall hne
    cases hall with
    | nil => exact absurd rfl hne
    | cons hp _ => exact ⟨_, resolve_flat_eq_ok_iff.mpr ⟨_, hp.2, rfl⟩, rfl⟩

end

/-- Two databases with one user, before and after the section that names it. -/
theorem cascade_eq_flat_shared :
    ∃ r f,
      (resolve (cascaded [("east", [(.text "subname", .text "//east")])] (some [(.text "user", .text "db")])
        [("the \"west\"", [(.text "subname", .text "//west"), (.text "gc-interval", .int 5)])])).result = .ok r ∧
      (resolve (flat [(.text "user", .text "db"), (.text "subname", .text "//east")])).result = .ok f ∧
      f.readProfile = r.readProfile := by
  obtain ⟨east, he⟩ : ∃ east, Accepts [(.text "user", .text "db"), (.text "subname", .text "//east")] east :=
    ⟨_, rfl, rfl⟩
  obtain ⟨west, hw⟩ : ∃ west, Accepts [(.text "user", .text "db"), (.text "subname", .text "//west"),
    (.text "gc-interval", .int 5)] west := ⟨_, rfl, rfl⟩
  obtain ⟨wide, hwide⟩ : ∃ wide, (fixUp none [(.text "user", .text "db")]).result = .ok wide := ⟨_, rfl⟩
  have hflat := @cascade_eq_flat _ [("east", [(.text "subname", .text "//east")])]
    [("the \"west\"", [(.text "subname", .text "//west"), (.text "gc-interval", .int 5)])]
    (some [(.text "user", .text "db")]) (by decide) (by decide) (by simp)
  obtain ⟨r, hr⟩ := hflat.1.mpr ⟨⟨wide, hwide⟩, by
    simp only [List.cons_append, List.nil_append, List.forall_mem_cons, List.not_mem_nil, false_imp_iff, implies_true,
      and_true]
    exact ⟨⟨_, resolve_flat_eq_ok_iff.mpr ⟨east, he, rfl⟩⟩, ⟨_, resolve_flat_eq_ok_iff.mpr ⟨west, hw, rfl⟩⟩⟩⟩
  obtain ⟨f, hf, hread⟩ := (hflat.2 r hr).2
  exact ⟨r, f, hr, hf, hread⟩

end Stanza.Database
