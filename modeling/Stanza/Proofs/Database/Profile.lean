import Stanza.Database.Profile
import Stanza.Proofs.Schema.RoundTrip

/-! # Fix-ups of profiles

What filling in retention, user and credentials leaves of a resolved section. Each fix-up sets declared fields to
values that are settled for them, so the section stays sound, and a profile that has been fixed up is not changed
by doing it again.
-/
namespace Stanza.Database

open Schema

variable {profile : Settings}

def textFields : List String :=
  ["subname", "user", "username", "password", "migrator-username", "migrator-password"]

theorem outgoing_textField {name : String} (h : name ∈ textFields) :
    writeDatabase.outgoing.get? name = some (optional name .text) := by
  simp only [textFields, List.mem_cons, List.not_mem_nil, or_false] at h
  rcases h with rfl | rfl | rfl | rfl | rfl | rfl <;> rfl

theorem declares_textField {name : String} (h : name ∈ textFields) : writeDatabase.incoming.declares name = true := by
  simp only [textFields, List.mem_cons, List.not_mem_nil, or_false] at h
  rcases h with rfl | rfl | rfl | rfl | rfl | rfl <;> decide

theorem exists_text_of_textField (hs : Sound writeDatabase profile) {name : String} (h : name ∈ textFields) {v : Value}
    (hv : profile.get? name = some v) : ∃ s, v = .text s :=
  (hs.settled_of_get? (outgoing_textField h) hv).exists_text rfl

theorem sound_set_textField (hs : Sound writeDatabase profile) {name : String} (h : name ∈ textFields) (s : String) :
    Sound writeDatabase (profile.set name (.text s)) :=
  hs.set (declares_textField h) (outgoing_textField h) (.text rfl s)

/-- A text goes from one of these fields to another. -/
theorem sound_set_of_textField (hs : Sound writeDatabase profile) {name other : String} (h : name ∈ textFields)
    (ho : other ∈ textFields) {v : Value} (hv : profile.get? other = some v) :
    Sound writeDatabase (profile.set name v) := by
  obtain ⟨s, rfl⟩ := exists_text_of_textField hs ho hv
  exact sound_set_textField hs h s

/-! ## Retention -/

theorem exists_period_of_get? (hs : Sound writeDatabase profile) {name : String} {field : Outgoing} {v : Value}
    (hg : writeDatabase.outgoing.get? name = some field) (hk : field.kind = .period)
    (hv : profile.get? name = some v) : ∃ p, v = .period p := by
  obtain ⟨p, _, rfl⟩ := (hs.settled_of_get? hg hv).exists_period hk
  exact ⟨p, rfl⟩

theorem has_reportTtl (hs : Sound writeDatabase profile) : profile.has "report-ttl" = true :=
  hs.complete _ (by decide)

theorem sound_defaultEventRetention (hs : Sound writeDatabase profile) :
    Sound writeDatabase (defaultEventRetention profile) := by
  rw [defaultEventRetention]
  split
  · obtain ⟨v, hv⟩ := Settings.has_iff_get?.mp (has_reportTtl hs)
    have hset : Settled (needed "report-ttl" .period) v := hs.settled_of_get? rfl hv
    obtain ⟨p, hp, rfl⟩ := hset.exists_period rfl
    rw [Settings.get_of_get? hv]
    exact hs.set (by decide) rfl (.period rfl hp)
  · exact hs

theorem has_defaultEventRetention (hs : Sound writeDatabase profile) :
    (defaultEventRetention profile).has "resource-events-ttl" = true := by
  rw [defaultEventRetention]
  split
  · rw [Settings.has_set]
    simp
  · next h =>
    rw [has_reportTtl hs, Bool.and_true, Bool.not_eq_true] at h
    rw [Settings.has_iff_get?]
    exact ⟨_, Settings.get?_of_get h⟩

theorem defaultEventRetention_of_has (hs : Sound writeDatabase profile)
    (h : profile.has "resource-events-ttl" = true) : defaultEventRetention profile = profile := by
  obtain ⟨v, hv⟩ := Settings.has_iff_get?.mp h
  have hn : v.isNull = false := by
    obtain ⟨_, field, _, _, _, hset⟩ := hs.settled _ (Settings.mem_of_get? hv)
    exact hset.isNull
  rw [defaultEventRetention, Settings.get_of_get? hv, hn]
  rfl

/-! ## User and migrator -/

theorem isTrue_userOf_iff :
    (userOf profile).isTrue = true ↔ (profile.get "user").isTrue = true ∨ (profile.get "username").isTrue = true := by
  rw [userOf]
  split
  · next hu => exact iff_of_true hu (.inl hu)
  · next hu => exact ⟨.inr, fun h => h.resolve_left hu⟩

theorem exists_get?_userOf (h : (userOf profile).isTrue = true) :
    ∃ name ∈ textFields, profile.get? name = some (userOf profile) := by
  rw [userOf] at *
  split at h
  · next hu => exact ⟨"user", by decide, by rw [if_pos hu]; exact Settings.get?_of_isTrue hu⟩
  · next hu => exact ⟨"username", by decide, by rw [if_neg hu]; exact Settings.get?_of_isTrue h⟩

theorem sound_withUser (hs : Sound writeDatabase profile) : Sound writeDatabase (withUser profile) := by
  rw [withUser]
  split
  · next ht =>
    obtain ⟨name, hn, hg⟩ := exists_get?_userOf ht
    exact sound_set_of_textField (sound_set_of_textField hs (by decide) hn hg) (by decide)
      (by decide : "user" ∈ textFields) (Settings.get?_set_self _ _ _)
  · exact hs

theorem get?_withUser_of_ne {name : String} (hu : name ≠ "user") (hn : name ≠ "username") :
    (withUser profile).get? name = profile.get? name := by
  rw [withUser]
  split
  · rw [Settings.get?_set_of_ne _ hn.symm, Settings.get?_set_of_ne _ hu.symm]
  · rfl

/-- The user is known under both names or under neither. -/
theorem get?_withUser (h : (userOf (withUser profile)).isTrue = true) :
    ∃ user, user.isTrue = true ∧ (withUser profile).get? "user" = some user ∧
      (withUser profile).get? "username" = some user := by
  by_cases ht : (userOf profile).isTrue = true
  · rw [withUser, if_pos ht]
    refine ⟨userOf profile, ht, ?_, Settings.get?_set_self _ _ _⟩
    rw [Settings.get?_set_of_ne _ (by decide), Settings.get?_set_self]
  · rw [withUser, if_neg ht] at h
    exact absurd h ht

theorem withUser_of_get? (h : (userOf profile).isTrue = true →
    ∃ user, profile.get? "user" = some user ∧ profile.get? "username" = some user) : withUser profile = profile := by
  rw [withUser]
  split
  · next ht =>
    obtain ⟨user, hu, hn⟩ := h ht
    have hboth : userOf profile = user := by
      rw [userOf, Settings.get_of_get? hu, Settings.get_of_get? hn, ite_self]
    rw [hboth, Settings.set_of_get? hu, Settings.set_of_get? hn]
  · rfl

theorem sound_setDefault_of_textField (hs : Sound writeDatabase profile) {name other : String} (h : name ∈ textFields)
    (ho : other ∈ textFields) {v : Value} (hv : profile.get? other = some v) :
    Sound writeDatabase (profile.setDefault name v) := by
  rw [Settings.setDefault]
  split
  · exact hs
  · exact sound_set_of_textField hs h ho hv

theorem sound_withMigrator (hs : Sound writeDatabase profile) (hu : (profile.get "user").isTrue = true) :
    Sound writeDatabase (withMigrator profile) := by
  have hn : Sound writeDatabase (profile.setDefault "migrator-username" (profile.get "user")) :=
    sound_setDefault_of_textField hs (by decide) (by decide) (Settings.get?_of_isTrue hu)
  simp only [withMigrator]
  split
  · next password hp =>
    refine sound_setDefault_of_textField hn (by decide) (by decide : "password" ∈ textFields) ?_
    rw [Settings.get?_setDefault, if_neg (by decide), hp]
  · exact hn

theorem get?_withMigrator_of_ne {name : String} (hu : name ≠ "migrator-username") (hp : name ≠ "migrator-password") :
    (withMigrator profile).get? name = profile.get? name := by
  simp only [withMigrator]
  split
  · rw [Settings.get?_setDefault, if_neg hp.symm, Settings.get?_setDefault, if_neg hu.symm]
  · rw [Settings.get?_setDefault, if_neg hu.symm]

theorem has_withMigrator_username : (withMigrator profile).has "migrator-username" = true := by
  rw [Settings.has_eq_isSome]
  simp only [withMigrator]
  split
  · rw [Settings.get?_setDefault, if_neg (by decide), Settings.get?_setDefault, if_pos rfl]
    rfl
  · rw [Settings.get?_setDefault, if_pos rfl]
    rfl

theorem has_withMigrator_password (h : (withMigrator profile).has "password" = true) :
    (withMigrator profile).has "migrator-password" = true := by
  rw [Settings.has_eq_isSome, get?_withMigrator_of_ne (by decide) (by decide), Option.isSome_iff_exists] at h
  obtain ⟨password, hp⟩ := h
  rw [Settings.has_eq_isSome]
  simp only [withMigrator, hp]
  rw [Settings.get?_setDefault, if_pos rfl]
  rfl

theorem withMigrator_of_has (hu : profile.has "migrator-username" = true)
    (hp : profile.has "password" = true → profile.has "migrator-password" = true) : withMigrator profile = profile := by
  simp only [withMigrator, Settings.setDefault_of_has hu]
  split
  · next password h =>
    exact Settings.setDefault_of_has (hp (Settings.has_iff_get?.mpr ⟨password, h⟩)) _
  · rfl

/-! ## Profiles that are fixed up -/

theorem result_reconcileUser (profile : Settings) (name : Option String) :
    (reconcileUser profile name).result = .ok (withUser profile) := by
  rw [reconcileUser]
  split <;> rfl

theorem defaultMigrator_eq_ok_iff {out : Settings} :
    defaultMigrator profile = .ok out ↔ (profile.get "user").isTrue = true ∧ withMigrator profile = out := by
  rw [defaultMigrator]
  cases (profile.get "user").isTrue <;> simp

def prepared (profile : Settings) : Settings := withUser (defaultEventRetention profile)

theorem fixUp_eq_ok_iff {name : Option String} {settings out : Settings} :
    (fixUp name settings).result = .ok out ↔ ∃ converted,
      (resolveSection writeDatabase settings (label name)).result = .ok converted ∧
      if (prepared converted).has "user" then
        ((prepared converted).get "user").isTrue = true ∧ withMigrator (prepared converted) = out
      else prepared converted = out := by
  simp only [fixUp, Logged.result_bind_eq_ok_iff, result_reconcileUser, Except.ok.injEq, exists_eq_left']
  refine exists_congr fun converted => and_congr_right fun _ => ?_
  change Logged.result (if (prepared converted).has "user" = true then _ else _) = _ ↔ _
  cases (prepared converted).has "user" with
  | true => exact defaultMigrator_eq_ok_iff
  | false => exact ⟨Except.ok.inj, congrArg _⟩

structure FixedUp (profile : Settings) : Prop where
  sound : Sound writeDatabase profile
  retained : profile.has "resource-events-ttl" = true
  user : profile.has "user" = true → (profile.get "user").isTrue = true
  known : (userOf profile).isTrue = true → ∃ user, user.isTrue = true ∧ profile.get? "user" = some user ∧
    profile.get? "username" = some user
  migrator : profile.has "user" = true → profile.has "migrator-username" = true ∧
    (profile.has "password" = true → profile.has "migrator-password" = true)

theorem sound_prepared (hs : Sound writeDatabase profile) : Sound writeDatabase (prepared profile) :=
  sound_withUser (sound_defaultEventRetention hs)

theorem has_prepared (hs : Sound writeDatabase profile) : (prepared profile).has "resource-events-ttl" = true := by
  rw [prepared, Settings.has_eq_isSome, get?_withUser_of_ne (by decide) (by decide), ← Settings.has_eq_isSome]
  exact has_defaultEventRetention hs

theorem fixedUp_of_fixUp {name : Option String} {settings : Settings} (h : (fixUp name settings).result = .ok profile) :
    FixedUp profile := by
  obtain ⟨converted, hr, hf⟩ := fixUp_eq_ok_iff.mp h
  have hs := sound_of_resolveSection coherent_writeDatabase hr
  split at hf
  · next hu =>
    obtain ⟨ht, rfl⟩ := hf
    have hget : ∀ key, key ≠ "migrator-username" → key ≠ "migrator-password" →
        (withMigrator (prepared converted)).get? key = (prepared converted).get? key := fun _ => get?_withMigrator_of_ne
    have huser : (withMigrator (prepared converted)).get "user" = (prepared converted).get "user" := by
      rw [Settings.get, hget _ (by decide) (by decide), ← Settings.get]
    refine ⟨sound_withMigrator (sound_prepared hs) ht, ?_, fun _ => by rw [huser]; exact ht, fun _ => ?_, fun _ => ?_⟩
    · rw [Settings.has_eq_isSome, hget _ (by decide) (by decide), ← Settings.has_eq_isSome]
      exact has_prepared hs
    · rw [hget _ (by decide) (by decide), hget _ (by decide) (by decide)]
      exact get?_withUser (isTrue_userOf_iff.mpr (.inl ht))
    · exact ⟨has_withMigrator_username, has_withMigrator_password⟩
  · next hu =>
    cases hf
    exact ⟨sound_prepared hs, has_prepared hs, fun h => absurd h hu, fun h => get?_withUser h, fun h => absurd h hu⟩

/-- Nothing is left to fix up. -/
theorem fixUp_of_fixedUp {name : Option String} {settings : Settings} (hf : FixedUp profile)
    (h : (resolveSection writeDatabase settings (label name)).result = .ok profile) :
    (fixUp name settings).result = .ok profile := by
  have hp : prepared profile = profile := by
    rw [prepared, defaultEventRetention_of_has hf.sound hf.retained]
    refine withUser_of_get? fun ht => ?_
    obtain ⟨user, _, hu, hn⟩ := hf.known ht
    exact ⟨user, hu, hn⟩
  refine fixUp_eq_ok_iff.mpr ⟨profile, h, ?_⟩
  rw [hp]
  split
  · next hu => exact ⟨hf.user hu, withMigrator_of_has (hf.migrator hu).1 (hf.migrator hu).2⟩
  · rfl

end Stanza.Database
