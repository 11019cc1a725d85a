import Stanza.Proofs.Config.Frozen
import Stanza.Proofs.Database.Profile

/-! # Well-formed profiles

A profile that is fixed up and valid is exactly what its specification demands, with every number from its minimum
on, and passes the checks that concern several settings. The fix-ups that run after the exact check do not spoil it.
-/
namespace Stanza

def Schema.Kind.unitMicros : Kind → Int
  | .minutes => minuteMicros
  | .days => dayMicros
  | _ => 1

def Schema.Reaches (field : Outgoing) : Value → Prop
  | .int n => ∀ m, field.minimum = some m → m ≤ n
  | .span s => ∀ m, field.minimum = some m → m * field.kind.unitMicros ≤ s.micros
  | _ => True

namespace Schema

theorem atLeast_eq_ok_iff {minimum : Option Int} {n : Int} :
    atLeast minimum n = .ok () ↔ ∀ m, minimum = some m → m ≤ n := by
  cases minimum with
  | none => simp [atLeast]
  | some m =>
    simp [atLeast]

theorem Settled.reaches {field : Outgoing} {v : Value} (h : Settled field v) : Reaches field v := by
  cases h with
  | integer _ hm => exact atLeast_eq_ok_iff.mp hm
  | minutes hk hm hs =>
    intro m hmin
    rw [hk, Span.micros_of_ofMinutes hs]
    exact Int.mul_le_mul_of_nonneg_right (atLeast_eq_ok_iff.mp hm m hmin) (by decide)
  | days hk hm hs =>
    intro m hmin
    rw [hk, Span.micros_of_ofDays hs]
    exact Int.mul_le_mul_of_nonneg_right (atLeast_eq_ok_iff.mp hm m hmin) (by decide)
  | _ => trivial

end Schema

namespace Database

open Schema

variable {profile : Settings}

/-! ## The checks of a profile -/

theorem checkSubname_eq_ok_iff {heading : String} :
    checkSubname profile heading = .ok () ↔ ∃ s, profile.get "subname" = .text s ∧ Text.isBlankText s = false := by
  rw [checkSubname]
  split
  · next s hs =>
    rw [hs]
    cases hb : Text.isBlankText s <;> simp [hb, checkSubname.refuse]
  · next hs =>
    refine iff_of_false (by simp [checkSubname.refuse]) ?_
    rintro ⟨s, h, _⟩
    exact hs s h

/-- Of two periods that are given. -/
theorem checkRetention_eq_ok_iff {events reports : Period} (he : profile.get? "resource-events-ttl" = some (.period events))
    (hr : profile.get? "report-ttl" = some (.period reports)) :
    checkRetention profile = .ok () ↔
      ∃ e r, events.toSpan = .ok e ∧ reports.toSpan = .ok r ∧ e.micros ≤ r.micros := by
  simp only [checkRetention, Settings.get_of_get? he, Settings.get_of_get? hr, Value.isNull, Bool.or_self,
    Bool.false_eq_true, if_false, Except.bind_eq_ok_iff, Except.mapError_eq_ok_iff]
  constructor
  · rintro ⟨e, hse, r, hsr, h⟩
    refine ⟨e, r, hse, hsr, Int.not_lt.mp fun hlt => ?_⟩
    rw [if_pos hlt] at h
    cases h
  · rintro ⟨e, r, hse, hsr, hle⟩
    refine ⟨e, hse, r, hsr, ?_⟩
    rw [if_neg (Int.not_lt.mpr hle)]
    rfl

/-! ## Blacklists -/

section

variable [Pattern.Compiler]

theorem compilePattern_eq_inl_iff {v : Value} {p : Pattern} :
    compilePattern v = .ok (.inl p) ↔ ∃ s, v = .text s ∧ Pattern.Compiler.compile s = .ok p := by
  cases v with
  | text s =>
    cases hc : Pattern.Compiler.compile s with
    | ok q => simp [compilePattern, hc]
    | error e => cases e <;> simp [compilePattern, hc]
  | _ => simp [compilePattern]

def Compiles (items : List Value) : Prop :=
  ∀ item ∈ items, ∃ s p, item = .text s ∧ Pattern.Compiler.compile s = .ok p

theorem compiles_iff {items : List Value} :
    Compiles items ↔ ∃ compiled, items.mapM compilePattern = .ok compiled ∧ compiled.filterMap (·.getRight?) = [] := by
  simp only [Except.mapM_eq_ok_iff, List.filterMap_eq_nil_iff, Sum.getRight?_eq_none_iff]
  constructor
  · intro h
    have hex : ∀ item ∈ items, ∃ c, compilePattern item = .ok c ∧ c.isLeft = true := by
      intro item hi
      obtain ⟨s, p, hs, hc⟩ := h item hi
      exact ⟨.inl p, compilePattern_eq_inl_iff.mpr ⟨s, hs, hc⟩, rfl⟩
    obtain ⟨compiled, hf⟩ := List.exists_forall₂ hex
    refine ⟨compiled, hf.imp fun _ _ h => h.1, fun c hc => ?_⟩
    obtain ⟨_, _, h⟩ := hf.exists_of_mem_right hc
    exact h.2
  · rintro ⟨compiled, hf, hl⟩ item hi
    obtain ⟨c, hc, hci⟩ := hf.exists_of_mem_left hi
    obtain ⟨p, rfl⟩ := Sum.isLeft_iff.mp (hl c hc)
    obtain ⟨s, hs, hcs⟩ := compilePattern_eq_inl_iff.mp hci
    exact ⟨s, p, hs, hcs⟩

/-- A blacklist of patterns is accepted if each of them compiles. -/
theorem exists_blacklist_iff : (∃ patterns, blacklist profile = .ok patterns) ↔
    ((profile.get "facts-blacklist-type").same (.text "regex") = true → (profile.get "facts-blacklist").isTrue = true →
      ∃ items, elements (profile.get "facts-blacklist") = .ok items ∧ Compiles items) := by
  simp only [blacklist]
  cases (profile.get "facts-blacklist-type").same (.text "regex") with
  | false => exact iff_of_true ⟨[], rfl⟩ (by simp)
  | true =>
    cases (profile.get "facts-blacklist").isTrue with
    | false => exact iff_of_true ⟨[], rfl⟩ (by simp)
    | true =>
      simp only [Bool.not_true, Bool.false_eq_true, if_false, forall_const, compiles_iff, Except.bind_eq_ok_iff]
      constructor
      · rintro ⟨patterns, items, hi, compiled, hc, h⟩
        refine ⟨items, hi, compiled, hc, ?_⟩
        split at h
        · assumption
        · cases h
      · rintro ⟨items, hi, compiled, hc, hr⟩
        exact ⟨_, items, hi, compiled, hc, by rw [hr]; rfl⟩

end

theorem elements_freeze {v : Value} {items : List Value} (h : elements v = .ok items)
    (ht : ∀ item ∈ items, ∃ s, item = .text s) : elements v.freeze = .ok items := by
  have hfreeze : freezeItems items = items := by
    rw [freezeItems_eq_map, List.map_congr_left (fun item hi => ?_), List.map_id]
    obtain ⟨s, rfl⟩ := ht item hi
    rfl
  cases v with
  | list _ | tuple _ =>
    cases h
    rw [Value.freeze, elements, hfreeze]
  | text s => exact h
  | map entries =>
    cases h
    rw [Value.freeze, elements, keys_freezeEntries]
  | _ => cases h

theorem isTrue_freeze (v : Value) : v.freeze.isTrue = v.isTrue := by
  cases v with
  | list items | tuple items => cases items <;> rfl
  | map entries => cases entries <;> rfl
  | _ => rfl

theorem freeze_same_text (v : Value) (s : String) : v.freeze.same (.text s) = v.same (.text s) := by
  rw [Bool.eq_iff_iff, Value.same_text_iff, Value.same_text_iff]
  cases v <;> simp [Value.freeze]

section

variable [Pattern.Compiler]

/-- A frozen profile has the patterns that it had before. -/
theorem exists_blacklist_freezeEntries (h : ∃ patterns, blacklist profile = .ok patterns) :
    ∃ patterns, blacklist (freezeEntries profile) = .ok patterns := by
  rw [exists_blacklist_iff] at *
  intro hregex hlisted
  rw [get_freezeEntries, freeze_same_text] at hregex
  rw [get_freezeEntries, isTrue_freeze] at hlisted
  obtain ⟨items, hi, hc⟩ := h hregex hlisted
  refine ⟨items, ?_, hc⟩
  rw [get_freezeEntries]
  refine elements_freeze hi fun item hmem => ?_
  obtain ⟨s, _, hs, _⟩ := hc item hmem
  exact ⟨s, hs⟩

theorem validate_eq_ok_iff {name : Option String} :
    validate profile name = .ok () ↔ checkSubname profile (label name) = .ok () ∧ checkRetention profile = .ok () ∧
      ∃ patterns, blacklist profile = .ok patterns := by
  simp only [validate, Except.bind_eq_ok_iff, Unique.exists_iff, PUnit.default_eq_unit, pure, Except.pure, and_true]

/-! ## Profiles -/

/-- What every profile for writing satisfies. -/
structure WellFormed (profile : Settings) : Prop where
  fits : Fits writeDatabase.outgoing profile
  reaches : ∀ field ∈ writeDatabase.outgoing.fields, ∀ value, profile.get? field.name = some value → Reaches field value
  retention : ∃ events reports e r, profile.get? "resource-events-ttl" = some (.period events) ∧
    profile.get? "report-ttl" = some (.period reports) ∧ events.toSpan = .ok e ∧ reports.toSpan = .ok r ∧
    e.micros ≤ r.micros
  user : (profile.get "user").isTrue = true ∨ (profile.get "username").isTrue = true →
    ∃ user, profile.get? "user" = some user ∧ profile.get? "username" = some user
  migrator : (profile.get "user").isTrue = true ∨ (profile.get "username").isTrue = true →
    profile.has "migrator-username" = true ∧
      (profile.has "password" = true → profile.has "migrator-password" = true)
  subname : ∃ s, profile.get? "subname" = some (.text s) ∧ Text.isBlankText s = false
  patterns : profile.get? "facts-blacklist-type" = some (.text "regex") →
    ∀ items, profile.get? "facts-blacklist" = some (.list items) → Compiles items

theorem wellFormed_of_fixedUp (hf : FixedUp profile) {name : Option String} (hv : validate profile name = .ok ()) :
    WellFormed profile := by
  obtain ⟨hsub, hret, hblack⟩ := validate_eq_ok_iff.mp hv
  refine ⟨hf.sound.fits coherent_writeDatabase, ?_, ?_, ?_, ?_, ?_, ?_⟩
  · intro field hmem value hvalue
    exact (hf.sound.settled_of_get? (Spec.get?_of_mem coherent_writeDatabase.nodup_outgoing hmem) hvalue).reaches
  · obtain ⟨_, he⟩ := Settings.has_iff_get?.mp hf.retained
    obtain ⟨_, hr⟩ := Settings.has_iff_get?.mp (has_reportTtl hf.sound)
    obtain ⟨events, rfl⟩ := exists_period_of_get? hf.sound rfl rfl he
    obtain ⟨reports, rfl⟩ := exists_period_of_get? hf.sound rfl rfl hr
    obtain ⟨e, r, hse, hsr, hle⟩ := (checkRetention_eq_ok_iff he hr).mp hret
    exact ⟨events, reports, e, r, he, hr, hse, hsr, hle⟩
  · intro h
    obtain ⟨user, _, hu, hn⟩ := hf.known (isTrue_userOf_iff.mpr h)
    exact ⟨user, hu, hn⟩
  · intro h
    obtain ⟨user, _, hu, _⟩ := hf.known (isTrue_userOf_iff.mpr h)
    exact hf.migrator (Settings.has_iff_get?.mpr ⟨user, hu⟩)
  · obtain ⟨s, hs, hb⟩ := checkSubname_eq_ok_iff.mp hsub
    refine ⟨s, ?_, hb⟩
    rw [Settings.get?_of_get (by rw [hs]; rfl), hs]
  · intro htype items hitems
    have hall := exists_blacklist_iff.mp hblack
    rw [Settings.get_of_get? htype, Settings.get_of_get? hitems] at hall
    cases items with
    | nil => exact fun _ h => absurd h List.not_mem_nil
    | cons item rest =>
      obtain ⟨_, he, hc⟩ := hall (Value.same_text_iff.mpr rfl) rfl
      cases he
      exact hc

end

end Database

end Stanza
