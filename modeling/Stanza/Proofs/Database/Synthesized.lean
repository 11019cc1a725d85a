import Stanza.Proofs.Database.Failure

/-! # The profile for reading that no document gives

A document that says nothing of a database for reading gets one from its first profile. If the profiles are valid this
cannot fail: what writing needs on its own and the credentials for migrations are left out, whether they are given
or filled in, and all else is taken over.
-/
namespace Stanza.Database

open Schema Section

variable {document : Document} {profiles : Section.Resolved Settings} {primary reading : Settings}

/-- What a profile for reading has of the profile for writing that it comes from. -/
structure TakenFrom (primary reading : Settings) : Prop where
  keys : Settings.keys reading
    = (Settings.keys primary).filter fun key => databaseOut.declaresKey key && !isMigratorKey key
  readOnly : reading.get? "read-only?" = some (.bool true)
  values : ∀ name, name ≠ "read-only?" → reading.has name = true → reading.get? name = primary.get? name
  fits : Fits databaseOut reading
  subname : ∃ s, primary.get? "subname" = some (.text s) ∧ reading.get? "subname" = some (.text s)
    ∧ Text.isBlankText s = false
  writeOnly : ∀ name, writeDatabase.outgoing.declares name = true → databaseOut.declares name = false →
    reading.has name = false
  migrator : ∀ name ∈ migratorKeys, reading.has name = false

theorem has_derived_iff (hs : Sound writeDatabase primary) {name : String} :
    (derived primary).has name = true ↔ primary.has name = true ∧ IsShared name := by
  rw [Settings.has_iff_mem_keys, keys_derived hs, List.mem_filter, ← Settings.has_iff_mem_keys, Bool.and_eq_true,
    Bool.not_eq_true']
  rfl

theorem takenFrom_derived (hs : Sound writeDatabase primary) {heading : String}
    (hsub : checkSubname primary heading = .ok ()) : TakenFrom primary (derived primary) where
  keys := keys_derived hs
  readOnly := get?_derived_readOnly
  values := fun name hne hhas => get?_derived hs ((has_derived_iff hs).mp hhas).2 hne.symm
  fits := (sound_derived hs).fits coherent_database
  subname := by
    obtain ⟨s, hget, hblank⟩ := checkSubname_eq_ok_iff.mp hsub
    have hs' : primary.get? "subname" = some (.text s) := by
      rw [Settings.get?_of_get (by rw [hget]; rfl), hget]
    have hshared : IsShared "subname" := by
      unfold IsShared
      decide
    exact ⟨s, hs', by rw [get?_derived hs hshared (by decide), hs'], hblank⟩
  writeOnly := by
    intro name _ hdeclares
    rw [Bool.eq_false_iff, Ne, has_derived_iff hs, IsShared, hdeclares]
    rintro ⟨_, hshared, _⟩
    cases hshared
  migrator := by
    intro name hname
    rw [Bool.eq_false_iff, Ne, has_derived_iff hs, IsShared, List.contains_iff_mem.mpr hname]
    rintro ⟨_, _, hshared⟩
    cases hshared

section

variable [Pattern.Compiler]

/-- The profiles for writing of a document, each of them valid. -/
def Writes (document : Document) (profiles : Section.Resolved Settings) : Prop :=
  ∃ tree, coalesce isHeadingValue document = .ok tree ∧
    ((cascade (tree.node "database")).resolve fun name _ settings => fixUp name settings).result = .ok profiles ∧
    ∀ e ∈ profiles.toList, validate e.2 e.1 = .ok ()

theorem Writes.exists_primary (h : Writes document profiles) : ∃ name, (name, profiles.primary?.getD []) ∈ profiles.toList
    ∧ Sound writeDatabase (profiles.primary?.getD []) := by
  obtain ⟨tree, _, hp, _⟩ := h
  obtain ⟨wide, hf⟩ := Section.forall₂_of_resolve hp
  have hne : profiles.toList ≠ [] := by
    intro hnil
    rw [hnil] at hf
    exact profiles_ne_nil _ (List.forall₂_nil_right_iff.mp hf)
  obtain ⟨name, hm⟩ := Resolved.exists_primary hne
  obtain ⟨_, _, _, hfix⟩ := hf.exists_of_mem_right hm
  exact ⟨name, hm, (fixedUp_of_fixUp hfix).sound⟩

/-- Without a profile for reading in it, a document whose profiles are valid is resolved, and its profile for reading is
taken from the first of them. -/
theorem readProfile_synthesized (hw : Writes document profiles)
    (hnone : ∀ value, (.text "read-database", value) ∈ document → value = .null) :
    ∃ r, (resolve document).result = .ok r ∧ r.profiles = profiles
      ∧ (readProfile .null (.map r.primary)).result = .ok r.readProfile ∧ TakenFrom r.primary r.readProfile := by
  obtain ⟨name, hprimary, hs⟩ := hw.exists_primary
  obtain ⟨tree, htree, hp, hv⟩ := hw
  have hgiven : plainAt tree "read-database" = .null :=
    (plainAt_of_coalesce htree "read-database").elim id (hnone _)
  have hread : (readProfile .null (.map (profiles.primary?.getD []))).result = .ok (derived (profiles.primary?.getD [])) :=
    deriveReadProfile_of_sound hs
  have hsub := (validate_eq_ok_iff.mp (hv _ hprimary)).1
  refine ⟨⟨profiles, derived (profiles.primary?.getD [])⟩, ?_, rfl, hread, takenFrom_derived hs hsub⟩
  refine resolve_eq_ok_iff.mpr ⟨tree, htree, hp, hv, ?_⟩
  rw [hgiven]
  exact hread

end

/-- Credentials for migrations, given and filled in, retention and a section that is there but empty. -/
theorem readProfile_synthesized_migrator :
    ∃ r, (resolve ([.own [(.text "report-ttl", .text "30d"), (.text "password", .text "secret")],
        .sub "east" [(.text "subname", .text "//east"), (.text "user", .text "app"),
          (.text "migrator-username", .text "root"), (.text "read-only?", .bool false)],
        .plain "read-database" .null].map Part.entry)).result = .ok r
      ∧ r.primary.get? "migrator-username" = some (.text "root")
      ∧ r.primary.get? "migrator-password" = some (.text "secret")
      ∧ TakenFrom r.primary r.readProfile := by
  have hparts : Regular [.own [(.text "report-ttl", .text "30d"), (.text "password", .text "secret")],
      .sub "east" [(.text "subname", .text "//east"), (.text "user", .text "app"),
        (.text "migrator-username", .text "root"), (.text "read-only?", .bool false)], .plain "read-database" .null] := by
    refine ⟨by decide, by decide, ?_, List.nodup_singleton _, ?_⟩
    · intro e he
      cases List.mem_singleton.mp he
      exact cleanName_of_isControl (by decide)
    · intro name contents hm
      simp only [List.mem_cons, reduceCtorEq, Part.plain.injEq, List.not_mem_nil, or_false, false_or] at hm
      rw [hm.1]
      decide
  obtain ⟨tree, htree, hnode, -⟩ := exists_coalesce_parts hparts
  obtain ⟨wide, hwide⟩ : ∃ wide, (fixUp none [(.text "report-ttl", .text "30d"), (.text "password", .text "secret")]).result
      = .ok wide := ⟨_, rfl⟩
  obtain ⟨profile, hprofile, hvalid, hname, hpassword⟩ : ∃ profile,
      (fixUp (some "east") [(.text "report-ttl", .text "30d"), (.text "password", .text "secret"),
        (.text "subname", .text "//east"), (.text "user", .text "app"), (.text "migrator-username", .text "root"),
        (.text "read-only?", .bool false)]).result = .ok profile
      ∧ validate profile (some "east") = .ok () ∧ profile.get? "migrator-username" = some (.text "root")
      ∧ profile.get? "migrator-password" = some (.text "secret") := ⟨_, rfl, rfl, rfl, rfl⟩
  have hresolve : ((cascade (tree.node "database")).resolve fun name _ settings => fixUp name settings).result
      = .ok (.named [("east", profile)]) := by
    rw [hnode]
    refine Section.resolve_eq_ok_iff.mpr ⟨wide, hwide, [("east", profile)], ?_, rfl⟩
    exact List.Forall₂.cons ⟨rfl, hprofile⟩ .nil
  have hall : ∀ e ∈ (Resolved.named [("east", profile)]).toList, validate e.2 e.1 = .ok () := by
    intro e he
    obtain rfl : e = (some "east", profile) := List.mem_singleton.mp he
    exact hvalid
  obtain ⟨r, hr, hprofiles, -, htaken⟩ := readProfile_synthesized ⟨tree, htree, hresolve, hall⟩ (by
    intro value hm
    obtain ⟨part, hpart, hentry⟩ := List.mem_map.mp hm
    obtain ⟨key, hkey, hheading⟩ := isHeading_entry hparts hpart
    rw [hentry] at hkey
    cases hkey
    obtain ⟨contents, rfl, -⟩ := hheading.resolve_left (by decide)
    cases hentry
    simpa using hpart)
  have hprimary : r.primary = profile := by
    rw [Resolution.primary, hprofiles]
    rfl
  refine ⟨r, hr, ?_, ?_, htaken⟩
  · rw [hprimary]
    exact hname
  · rw [hprimary]
    exact hpassword

end Stanza.Database
