import Stanza.Proofs.Command.Dump
import Stanza.Proofs.Database.Cascade
import Stanza.Proofs.Database.Origin

/-! # What resolved databases have in common

A property of the settings of a document that layering keeps is handed on to the profiles: their keys are distinct,
and a retired setting that is written nowhere has its default. The order of the settings of a profile plays no part
in whether it is valid.
-/
namespace Stanza.Database

open Schema Section

variable {profile other : Settings}

/-! ## Distinct keys -/

theorem nodup_keys_setDefault (hn : (Settings.keys profile).Nodup) (name : String) (v : Value) :
    (Settings.keys (profile.setDefault name v)).Nodup := by
  rw [Settings.setDefault]
  split
  · exact hn
  · exact Settings.nodup_keys_set hn name v

theorem nodup_keys_prepared (hn : (Settings.keys profile).Nodup) : (Settings.keys (prepared profile)).Nodup := by
  have hret : (Settings.keys (defaultEventRetention profile)).Nodup := by
    rw [defaultEventRetention]
    split
    · exact Settings.nodup_keys_set hn _ _
    · exact hn
  rw [prepared, withUser]
  split
  · exact Settings.nodup_keys_set (Settings.nodup_keys_set hret _ _) _ _
  · exact hret

theorem nodup_keys_withMigrator (hn : (Settings.keys profile).Nodup) : (Settings.keys (withMigrator profile)).Nodup := by
  simp only [withMigrator]
  split
  · exact nodup_keys_setDefault (nodup_keys_setDefault hn _ _) _ _
  · exact nodup_keys_setDefault hn _ _

theorem nodup_keys_of_fixUp {settings : Settings} (hd : settings.Distinct) {name : Option String}
    (h : (fixUp name settings).result = .ok profile) : (Settings.keys profile).Nodup := by
  obtain ⟨converted, hr, hf⟩ := fixUp_eq_ok_iff.mp h
  have hn := nodup_keys_prepared (nodup_keys_of_resolveSection hd hr)
  split at hf
  · obtain ⟨_, rfl⟩ := hf
    exact nodup_keys_withMigrator hn
  · exact hf ▸ hn

/-! ## Retired settings -/

def Unretired (settings : Settings) : Prop := ∀ key ∈ Retirement.databaseKeys, settings.has key = false

theorem Unretired.overlay {under above : Settings} (hu : Unretired under) (ha : Unretired above) :
    Unretired (under.overlay above) := by
  intro key hkey
  rw [Bool.eq_false_iff, Ne, Settings.has_iff_mem_keys]
  intro hm
  rcases Settings.mem_keys_overlay hm with hm | hm
  · rw [← Settings.has_iff_mem_keys, hu key hkey] at hm
    cases hm
  · rw [← Settings.has_iff_mem_keys, ha key hkey] at hm
    cases hm

theorem databaseKeys_not_filled : ∀ key ∈ Retirement.databaseKeys, key ≠ "resource-events-ttl" ∧ key ≠ "user" ∧
    key ≠ "username" ∧ key ≠ "migrator-username" ∧ key ≠ "migrator-password" ∧ key ≠ "read-only?" := by
  decide

/-- Retired settings have the same defaults for reading and for writing. -/
theorem get?_incoming_databaseKeys {key : String} (h : key ∈ Retirement.databaseKeys) :
    writeDatabase.incoming.get? key = Schema.database.incoming.get? key := by
  simp only [Retirement.databaseKeys, List.mem_cons, List.not_mem_nil, or_false] at h
  rcases h with rfl | rfl | rfl | rfl | rfl <;> rfl

theorem get?_defaultEventRetention_of_ne {name : String} (h : name ≠ "resource-events-ttl") :
    (defaultEventRetention profile).get? name = profile.get? name := by
  rw [defaultEventRetention]
  split
  · rw [Settings.get?_set_of_ne _ h.symm]
  · rfl

/-- The fix-ups do not touch retired settings. -/
theorem atDefault_of_fixUp {settings : Settings} (hu : Unretired settings) {name : Option String}
    (h : (fixUp name settings).result = .ok profile) :
    Dump.AtDefault writeDatabase Retirement.databaseKeys profile := by
  obtain ⟨converted, hr, hf⟩ := fixUp_eq_ok_iff.mp h
  have hd := Dump.atDefault_of_resolveSection coherent_writeDatabase Dump.restorable_writeDatabase hu hr
  intro key hkey v hv
  obtain ⟨hret, huser, husername, hmu, hmp, _⟩ := databaseKeys_not_filled key hkey
  have hprep : (prepared converted).get? key = converted.get? key := by
    rw [prepared, get?_withUser_of_ne huser husername, get?_defaultEventRetention_of_ne hret]
  refine hd key hkey v ?_
  split at hf
  · obtain ⟨_, rfl⟩ := hf
    rwa [get?_withMigrator_of_ne hmu hmp, hprep] at hv
  · subst hf
    rwa [hprep] at hv

/-! ## The order of settings -/

theorem FixedUp.of_sameMapping (hf : FixedUp profile) (h : other.SameMapping profile) : FixedUp other := by
  have huser : userOf other = userOf profile := by rw [userOf, h.get, h.get, ← userOf]
  have hhas := Settings.has_perm h.perm
  refine ⟨hf.sound.perm h.perm, ?_, ?_, ?_, ?_⟩
  · rw [hhas, hf.retained]
  · rw [hhas, h.get]
    exact hf.user
  · rw [huser, h.get?, h.get?]
    exact hf.known
  · rw [hhas, hhas, hhas, hhas]
    exact hf.migrator

theorem mem_profiles_cascade {s : Section} {e : Option String × Settings} (h : e ∈ (cascade s).profiles) :
    (e.1 = none ∧ e.2 = s.settings) ∨ ∃ p ∈ s.subsections, e.1 = some p.1 ∧ e.2 = s.settings.overlay p.2 := by
  rw [profiles] at h
  split at h
  · obtain ⟨p, hp, rfl⟩ := List.mem_map.mp h
    obtain ⟨q, hq, rfl⟩ := List.mem_map.mp hp
    exact .inr ⟨q, hq, rfl, rfl⟩
  · exact .inl ⟨congrArg Prod.fst (List.mem_singleton.mp h), congrArg Prod.snd (List.mem_singleton.mp h)⟩

section

variable [Pattern.Compiler]

theorem validate_of_sameMapping (h : other.SameMapping profile) (name : Option String) :
    validate other name = validate profile name := by
  simp only [validate, checkSubname, checkRetention, blacklist, h.get]

/-! ## Profiles of a document -/

variable {document : Document} {r : Resolution}

/-- What layering hands on from the settings of the document and the fix-ups make something of. -/
theorem forall_profiles_of_resolve {P Q : Settings → Prop} (htext : Settings.TextKeys document) (hnil : P [])
    (hmap : ∀ key entries, isHeading key = true → (.text key, .map entries) ∈ document → P entries)
    (hover : ∀ under above, P under → P above → P (Settings.overlay under above))
    (hfix : ∀ name settings profile, P settings → (fixUp name settings).result = .ok profile → Q profile)
    (h : (resolve document).result = .ok r) : ∀ e ∈ r.profiles.toList, Q e.2 := by
  obtain ⟨tree, htree, hp, _⟩ := resolve_eq_ok_iff.mp h
  obtain ⟨htraced, _⟩ := of_coalesce htext hnil hmap htree
  obtain ⟨_, hf⟩ := Section.forall₂_of_resolve hp
  intro e he
  obtain ⟨d, hd, _, hfixed⟩ := hf.exists_of_mem_right he
  refine hfix _ _ _ ?_ hfixed
  rcases mem_profiles_cascade hd with ⟨_, hs⟩ | ⟨p, hp, _, hs⟩
  · exact hs ▸ htraced.own
  · exact hs ▸ hover _ _ htraced.own (htraced.subs p hp).2

theorem nodup_keys_of_resolve (htext : Settings.TextKeys document)
    (hd : ∀ key entries, (key, .map entries) ∈ document → Settings.Distinct entries)
    (h : (resolve document).result = .ok r) : ∀ e ∈ r.profiles.toList, (Settings.keys e.2).Nodup :=
  forall_profiles_of_resolve htext List.Pairwise.nil (fun _ entries _ hm => hd _ entries hm)
    (fun _ _ hu _ => Settings.distinct_overlay hu _) (fun _ _ _ hs hf => nodup_keys_of_fixUp hs hf) h

theorem atDefault_of_resolve (htext : Settings.TextKeys document)
    (hu : ∀ key entries, isHeading key = true → (.text key, .map entries) ∈ document → Unretired entries)
    (h : (resolve document).result = .ok r) :
    ∀ e ∈ r.profiles.toList, Dump.AtDefault writeDatabase Retirement.databaseKeys e.2 :=
  forall_profiles_of_resolve htext (fun _ _ => rfl) hu (fun _ _ => Unretired.overlay)
    (fun _ _ _ hs hf => atDefault_of_fixUp hs hf) h

/-- The profiles of a document have names that can be written, each once. -/
theorem names_of_resolve (htext : Settings.TextKeys document) (h : (resolve document).result = .ok r) :
    (∀ e ∈ r.profiles.toList, ∀ name, e.1 = some name → CleanName name) ∧ r.profiles.names.Nodup ∧
      r.profiles.toList ≠ [] := by
  obtain ⟨tree, htree, hp, _⟩ := resolve_eq_ok_iff.mp h
  obtain ⟨htraced, _⟩ := @of_coalesce (fun _ => True) _ tree htext trivial (fun _ _ _ _ => trivial) htree
  obtain ⟨_, hf⟩ := Section.forall₂_of_resolve hp
  refine ⟨fun e he name hname => ?_, ?_, ?_⟩
  · obtain ⟨d, hd, hde, _⟩ := hf.exists_of_mem_right he
    rcases mem_profiles_cascade hd with ⟨hn, _⟩ | ⟨p, hp, hn, _⟩
    · cases hname.symm.trans (hde.symm.trans hn)
    · cases hname.symm.trans (hde.symm.trans hn)
      exact (htraced.subs p hp).1
  · obtain ⟨wide, _, hr⟩ := Section.resolve_eq_ok_iff.mp hp
    split at hr
    · obtain ⟨results, hres, hr⟩ := hr
      have hnames : (tree.node "database").subsections.map Prod.fst = results.map Prod.fst := by
        rw [← List.forall₂_eq_eq_eq, List.forall₂_map_left_iff, List.forall₂_map_right_iff]
        exact (List.forall₂_map_left_iff.mp hres).imp fun _ _ h => h.1
      rw [← hr, Resolved.names, ← hnames]
      exact htraced.nodup
    · rw [← hr]
      exact List.nodup_nil
  · intro hnil
    rw [hnil] at hf
    exact profiles_ne_nil _ (List.forall₂_nil_right_iff.mp hf)

/-! ## The profile for reading -/

/-- What every profile for reading satisfies. -/
structure Readable (profile : Settings) : Prop where
  sound : Sound database profile
  subname : checkSubname profile "read-database" = .ok ()
  patterns : ∃ patterns, blacklist profile = .ok patterns

theorem readProfileOf_eq_ok_iff {settings : Settings} : (readProfileOf settings).result = .ok profile ↔
    (Schema.resolveSection Schema.database settings "read-database").result = .ok profile ∧
      checkSubname profile "read-database" = .ok () ∧ ∃ patterns, blacklist profile = .ok patterns := by
  simp only [readProfileOf, Logged.result_bind_eq_ok_iff, Logged.result_lift, Logged.result_pure]
  constructor
  · rintro ⟨_, hr, _, hs, patterns, hp, h⟩
    cases h
    exact ⟨hr, hs, patterns, hp⟩
  · rintro ⟨hr, hs, patterns, hp⟩
    exact ⟨profile, hr, (), hs, patterns, hp, rfl⟩

/-- A profile for reading is derived or has a section of its own. -/
theorem readProfile_eq_ok {given : Value} {primary : Settings}
    (h : (readProfile given (.map primary)).result = .ok profile) :
    deriveReadProfile primary = .ok profile ∨
      ∃ settings, given = .map settings ∧ (readProfileOf settings).result = .ok profile := by
  cases given with
  | null => exact .inl h
  | map settings => exact .inr ⟨settings, rfl, h⟩
  | _ => cases h

theorem Readable.of_sameMapping (hr : Readable profile) (h : other.SameMapping profile) : Readable other := by
  refine ⟨hr.sound.perm h.perm, ?_, ?_⟩
  · simpa only [checkSubname, h.get] using hr.subname
  · simpa only [blacklist, h.get] using hr.patterns

/-- What is derived from a valid profile can be used for reading. -/
theorem readable_derived (hs : Sound writeDatabase profile) {name : Option String}
    (hv : validate profile name = .ok ()) : Readable (derived profile) := by
  have hget : ∀ key ∈ ["subname", "facts-blacklist", "facts-blacklist-type"],
      (derived profile).get key = profile.get key := by
    intro key hkey
    have hshared : ∀ key ∈ ["subname", "facts-blacklist", "facts-blacklist-type"], IsShared key ∧ "read-only?" ≠ key := by
      unfold IsShared
      decide
    rw [Settings.get, get?_derived hs (hshared key hkey).1 (hshared key hkey).2, ← Settings.get]
  simp only [List.forall_mem_cons, List.not_mem_nil, false_imp_iff, implies_true, and_true] at hget
  obtain ⟨hsub, hlist, htype⟩ := hget
  obtain ⟨hsubname, _, hpatterns⟩ := validate_eq_ok_iff.mp hv
  refine ⟨sound_derived hs, ?_, ?_⟩
  · rw [checkSubname_eq_ok_iff] at hsubname ⊢
    rwa [hsub]
  · rwa [blacklist, hlist, htype]

/-- Where the profile for reading comes from. -/
theorem readProfile_of_resolve (htext : Settings.TextKeys document) (h : (resolve document).result = .ok r) :
    (∃ e ∈ r.profiles.toList, r.readProfile = derived e.2) ∨
      ∃ settings, (.text "read-database", .map settings) ∈ document ∧
        (readProfileOf settings).result = .ok r.readProfile := by
  obtain ⟨name, hprimary⟩ := Resolved.exists_primary (names_of_resolve htext h).2.2
  obtain ⟨tree, htree, _, _, hread⟩ := resolve_eq_ok_iff.mp h
  rcases readProfile_eq_ok hread with hd | ⟨settings, hgiven, hd⟩
  · rw [deriveReadProfile_of_sound (fixedUp_of_resolve h hprimary).sound] at hd
    exact .inl ⟨_, hprimary, (Except.ok.inj hd).symm⟩
  · obtain ⟨_, _, hplain⟩ := @of_coalesce (fun _ => True) _ tree htext trivial (fun _ _ _ _ => trivial) htree
    refine .inr ⟨settings, ?_, hd⟩
    have hp := hplain "read-database"
    rw [hgiven] at hp
    exact hp.resolve_left (by simp)

theorem readable_of_resolve (htext : Settings.TextKeys document)
    (hd : ∀ key entries, (key, .map entries) ∈ document → Settings.Distinct entries)
    (h : (resolve document).result = .ok r) : Readable r.readProfile ∧ (Settings.keys r.readProfile).Nodup := by
  rcases readProfile_of_resolve htext h with ⟨e, he, hr⟩ | ⟨settings, hm, hr⟩
  · have hn := nodup_keys_of_resolve htext hd h e he
    rw [hr]
    exact ⟨readable_derived (fixedUp_of_resolve h he).sound (validate_of_resolve h he), nodup_keys_derived hn⟩
  · obtain ⟨hres, hsub, hpatterns⟩ := readProfileOf_eq_ok_iff.mp hr
    exact ⟨⟨sound_of_resolveSection coherent_database hres, hsub, hpatterns⟩, nodup_keys_of_resolveSection (hd _ _ hm) hres⟩

theorem atDefault_readProfile (htext : Settings.TextKeys document)
    (hd : ∀ key entries, (key, .map entries) ∈ document → Settings.Distinct entries)
    (hu : ∀ key entries, isHeading key = true ∨ key = "read-database" → (.text key, .map entries) ∈ document →
      Unretired entries) (h : (resolve document).result = .ok r) :
    Dump.AtDefault Schema.database Retirement.databaseKeys r.readProfile := by
  rcases readProfile_of_resolve htext h with ⟨e, he, hr⟩ | ⟨settings, hm, hr⟩
  · intro key hkey v hv
    rw [hr] at hv
    have hne := (databaseKeys_not_filled key hkey).2.2.2.2.2
    rcases (mem_derived (Settings.mem_of_get? hv)).2 with hmem | hmem
    · have hdefault := atDefault_of_resolve htext (fun key entries hk => hu key entries (.inl hk)) h e he
      rw [← get?_incoming_databaseKeys hkey]
      exact hdefault key hkey v (Settings.get?_of_mem (nodup_keys_of_resolve htext hd h e he) hmem)
    · exact absurd (Value.text.inj (congrArg Prod.fst hmem)) hne
  · exact Dump.atDefault_of_resolveSection coherent_database Dump.restorable_database (hu _ _ (.inr rfl) hm)
      (readProfileOf_eq_ok_iff.mp hr).1

end

end Stanza.Database
