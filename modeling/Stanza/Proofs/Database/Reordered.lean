import Stanza.Proofs.Database.Resolved
import Stanza.Proofs.Section.Gathered

/-! # Databases of reordered documents

Among headers that stand once the order plays no part in what belongs to a section, only in which subsection is the
first. So a reordered document has the same profiles, and derives its profile for reading from another one at most.
-/
namespace Stanza

namespace Section

variable {isHeader : String → Bool} {document other : Document} {rs ss : List (Header × Settings)} {s t : Section}

theorem lookup_eq_some_iff (hn : (rs.map Prod.fst).Nodup) {header : Header} {settings : Settings} :
    rs.lookup header = some settings ↔ (header, settings) ∈ rs := by
  induction rs with
  | nil => simp
  | cons r rs ih =>
    rw [List.map_cons, List.nodup_cons] at hn
    rw [List.lookup_cons, List.mem_cons]
    by_cases he : header = r.1
    · rw [he, beq_self_eq_true]
      constructor
      · exact fun h => .inl (Prod.ext rfl (Option.some.inj h).symm)
      · rintro (h | hm)
        · exact congrArg some (congrArg Prod.snd h).symm
        · exact absurd (List.mem_map_of_mem hm) hn.1
    · rw [beq_false_of_ne he, ih hn.2]
      exact ⟨.inr, fun h => h.resolve_left fun hr => he (congrArg Prod.fst hr)⟩

theorem lookup_perm (h : rs.Perm ss) (hn : (rs.map Prod.fst).Nodup) (header : Header) :
    rs.lookup header = ss.lookup header := by
  have hs : (ss.map Prod.fst).Nodup := (h.map _).nodup_iff.mp hn
  ext settings
  rw [lookup_eq_some_iff hn, lookup_eq_some_iff hs, h.mem_iff]

/-- The same settings, and the same subsections in some order. -/
structure Shuffled (s t : Section) : Prop where
  settings : s.settings = t.settings
  subsections : s.subsections.Perm t.subsections

theorem shuffled_gathered (h : rs.Perm ss) (hn : (rs.map Prod.fst).Nodup) (name : String) :
    Shuffled (gathered rs name) (gathered ss name) where
  settings := congrArg (Option.getD · []) (lookup_perm h hn { name })
  subsections := h.filterMap _

theorem readings_perm (h : document.Perm other) : (readings isHeader document).Perm (readings isHeader other) :=
  h.filterMap _

theorem Groupable.perm (hg : Groupable isHeader document) (h : document.Perm other) : Groupable isHeader other where
  parses := fun key hk hm => hg.parses key hk ((h.map _).mem_iff.mpr hm)
  mappings := fun key value hk hm => hg.mappings key value hk (h.mem_iff.mpr hm)
  once := ((readings_perm h).map _).nodup_iff.mp hg.once

/-- The parts of a section are resolved whatever order they are in. -/
theorem exists_resolve_of_shuffled {f : Option String → Settings → Settings → Logged Settings} {r : Resolved Settings}
    (hs : Shuffled s t) (h : (s.resolve f).result = .ok r) :
    ∃ q, (t.resolve f).result = .ok q ∧ r.toList.Perm q.toList := by
  obtain ⟨wide, hwide, hr⟩ := resolve_eq_ok_iff.mp h
  have hhas : t.hasSubsections = s.hasSubsections := by
    rw [hasSubsections, hasSubsections, hs.subsections.isEmpty_eq]
  cases hsub : s.hasSubsections with
  | false =>
    rw [hsub] at hr hhas
    refine ⟨.sole wide, resolve_eq_ok_iff.mpr ⟨wide, hs.settings ▸ hwide, ?_⟩, ?_⟩
    · rw [hhas]
      rfl
    · rw [show r = .sole wide from hr.symm]
  | true =>
    rw [hsub] at hr hhas
    obtain ⟨results, hresults, rfl⟩ := hr
    obtain ⟨permuted, hpermuted, hperm⟩ := List.perm_comp_forall₂ hs.subsections.symm hresults
    refine ⟨.named permuted, resolve_eq_ok_iff.mpr ⟨wide, hs.settings ▸ hwide, ?_⟩, ?_⟩
    · rw [hhas]
      exact ⟨permuted, hpermuted, rfl⟩
    · exact (hperm.map _).symm

end Section

namespace Database

open Section

variable {document other : Document}

def inFamily : Value × Value → Bool
  | (.text key, _) => isHeading key
  | _ => false

theorem readings_filter (document : Document) : readings isHeading (document.filter inFamily) = readings isHeading document := by
  rw [readings, List.filterMap_filter, readings]
  refine List.filterMap_congr fun e _ => ?_
  rcases e with ⟨key, value⟩
  cases key with
  | text key =>
    rw [inFamily, reading?]
    cases isHeading key <;> rfl
  | _ => rfl

/-- What a document that repeats no key is grouped into. -/
theorem of_coalesce_of_nodup {tree : Section.Tree} (ht : Settings.TextKeys document)
    (hn : (Settings.keys document).Nodup) (h : coalesce isHeadingValue document = .ok tree) :
    tree.node "database" = gathered (readings isHeading document) "database" ∧
      plainAt tree "read-database" = Settings.get document "read-database" := by
  obtain ⟨g, rfl, hg⟩ := gathers_of_coalesce (fun _ => rfl) ht (apart_isHeading document) h
  have hname : ∀ r ∈ readings isHeading document, r.1.name ≠ "read-database" := by
    intro r hr hname
    obtain ⟨e, _, he⟩ := List.mem_filterMap.mp hr
    obtain ⟨key, _, hk, hp⟩ := reading?_eq_some he
    have hheading := isHeading_name hk hp
    rw [hname] at hheading
    exact absurd hheading (by decide)
  refine ⟨hg.node _, ?_⟩
  have hperm := Settings.get?_perm (List.reverse_perm document).symm hn "read-database"
  rw [plainAt, hg.plain _ hname, if_neg (by decide), ← hperm, Settings.get]
  cases Settings.get? document "read-database" <;> rfl

theorem shuffled_cascade {s t : Section} (h : Shuffled s t) : Shuffled (cascade s) (cascade t) where
  settings := h.settings
  subsections := by
    rw [cascade, cascade, h.settings]
    exact h.subsections.map _

variable [Pattern.Compiler] {r q : Resolution}

theorem resolve_eq_ok_iff_of_nodup (ht : Settings.TextKeys document) (hn : (Settings.keys document).Nodup) :
    (resolve document).result = .ok r ↔ Groupable isHeading document ∧
      ((cascade (gathered (readings isHeading document) "database")).resolve
        fun name _ settings => fixUp name settings).result = .ok r.profiles ∧
      (∀ e ∈ r.profiles.toList, validate e.2 e.1 = .ok ()) ∧
      (readProfile (Settings.get document "read-database") (.map (r.profiles.primary?.getD []))).result
        = .ok r.readProfile := by
  have hgroup : (∃ tree, coalesce isHeadingValue document = .ok tree) ↔ Groupable isHeading document :=
    exists_coalesce_iff (fun _ => rfl) ht (apart_isHeading document)
  rw [resolve_eq_ok_iff, ← hgroup]
  constructor
  · rintro ⟨tree, htree, h⟩
    obtain ⟨hnode, hplain⟩ := of_coalesce_of_nodup ht hn htree
    rw [hnode, hplain] at h
    exact ⟨⟨tree, htree⟩, h⟩
  · rintro ⟨⟨tree, htree⟩, h⟩
    obtain ⟨hnode, hplain⟩ := of_coalesce_of_nodup ht hn htree
    refine ⟨tree, htree, ?_⟩
    rwa [hnode, hplain]

/-- Whichever profile comes first, one for reading is derived from it, unless there is a section for reading. -/
theorem exists_readProfile {given : Value} {primary first : Settings} {profile : Settings}
    (hf : FixedUp first) (h : (readProfile given (.map primary)).result = .ok profile) :
    ∃ read, (readProfile given (.map first)).result = .ok read := by
  rcases readProfile_eq_ok h with _ | ⟨settings, rfl, hs⟩
  · cases given with
    | null => exact ⟨_, deriveReadProfile_of_sound hf.sound⟩
    | map settings => exact ⟨_, h⟩
    | _ => cases h
  · exact ⟨_, hs⟩

theorem exists_resolve_of_perm (h : document.Perm other) (ht : Settings.TextKeys document)
    (hn : (Settings.keys document).Nodup) (hr : (resolve document).result = .ok r) :
    ∃ q, (resolve other).result = .ok q ∧ r.profiles.toList.Perm q.profiles.toList := by
  have hto : Settings.TextKeys other := fun k hk => ht k ((h.map _).mem_iff.mpr hk)
  have hno : (Settings.keys other).Nodup := (h.map _).nodup_iff.mp hn
  obtain ⟨hg, hprofiles, hvalid, hread⟩ := (resolve_eq_ok_iff_of_nodup ht hn).mp hr
  have hshuffled := shuffled_cascade (shuffled_gathered (readings_perm h) hg.once "database")
  obtain ⟨profiles, hq, hperm⟩ := exists_resolve_of_shuffled hshuffled hprofiles
  have hne : profiles.toList ≠ [] := fun hnil => (names_of_resolve ht hr).2.2 (hnil ▸ hperm).eq_nil
  obtain ⟨name, hfirst⟩ := Resolved.exists_primary hne
  have hfixed := fixedUp_of_resolve hr (hperm.mem_iff.mpr hfirst)
  obtain ⟨read, hreadq⟩ := exists_readProfile hfixed hread
  rw [Settings.get, Settings.get?_perm h hn, ← Settings.get] at hreadq
  refine ⟨⟨profiles, read⟩, (resolve_eq_ok_iff_of_nodup hto hno).mpr ⟨hg.perm h, hq, ?_, hreadq⟩, hperm⟩
  exact fun e he => hvalid e (hperm.mem_iff.mpr he)

/-- The profile for reading depends on the order of the databases alone, and not even on that if it has a section. -/
theorem readProfile_eq_of_perm (h : document.Perm other) (ht : Settings.TextKeys document)
    (hn : (Settings.keys document).Nodup) (hr : (resolve document).result = .ok r) (hq : (resolve other).result = .ok q)
    (hsame : document.filter inFamily = other.filter inFamily ∨
      ∃ settings, (.text "read-database", .map settings) ∈ document) : r.readProfile = q.readProfile := by
  have hto : Settings.TextKeys other := fun k hk => ht k ((h.map _).mem_iff.mpr hk)
  have hno : (Settings.keys other).Nodup := (h.map _).nodup_iff.mp hn
  obtain ⟨_, hprofiles, _, hread⟩ := (resolve_eq_ok_iff_of_nodup ht hn).mp hr
  obtain ⟨_, hothers, _, hreadq⟩ := (resolve_eq_ok_iff_of_nodup hto hno).mp hq
  rw [Settings.get, Settings.get?_perm h hn, ← Settings.get] at hread
  rcases hsame with hfamily | ⟨settings, hm⟩
  · rw [← readings_filter, ← hfamily, readings_filter, hprofiles] at hothers
    rw [← Except.ok.inj hothers, hread] at hreadq
    exact Except.ok.inj hreadq
  · have hget : Settings.get other "read-database" = .map settings :=
      Settings.get_of_get? (Settings.get?_of_mem hno (h.mem_iff.mp hm))
    rw [hget] at hread hreadq
    exact Except.ok.inj (hread.symm.trans hreadq)

end Database

end Stanza
