import Stanza.Proofs.Database.Resolution
import Stanza.Proofs.Schema.Origin

/-! # Profiles for reading

A profile for reading can always be derived from one for writing: each of its fields is a field for writing as well,
of the same kind and with the same minimum.
-/
namespace Stanza.Database

open Schema

variable {profile : Settings}

def derived (primary : Settings) : Settings :=
  databaseOut.stripUnknown
    (Settings.set ((Section.scalars primary).filter fun e => !isMigratorKey e.1) "read-only?" (.bool true))

theorem deriveReadProfile_eq (primary : Settings) :
    deriveReadProfile primary = validateOutgoing databaseOut (derived primary) "read-database" := rfl

theorem writeDatabase_get? : ∀ field ∈ databaseOut.fields, writeDatabase.outgoing.get? field.name = some field := by
  decide

theorem declares_databaseIn : ∀ field ∈ databaseOut.fields, databaseIn.declares field.name = true := by
  decide

/-- A name that a profile for reading has whenever one for writing has it. -/
def IsShared (name : String) : Prop := databaseOut.declares name = true ∧ migratorKeys.contains name = false

theorem isShared_of_mem_requiredNames :
    ∀ name ∈ requiredNames databaseOut, IsShared name ∧ name ∈ requiredNames writeDatabase.outgoing := by
  unfold IsShared
  decide

theorem mem_requiredNames_of_default : ∀ field ∈ databaseIn.fields, field.default.value.isNull = false →
    field.name ∈ requiredNames databaseOut := by
  decide

theorem mem_derived {e : Value × Value} (h : e ∈ derived profile) :
    databaseOut.declaresKey e.1 = true ∧ (e ∈ profile ∨ e = (.text "read-only?", .bool true)) := by
  obtain ⟨hm, hd⟩ := List.mem_filter.mp h
  refine ⟨hd, (Settings.mem_of_mem_set hm).imp_left fun hm => ?_⟩
  exact List.mem_of_mem_filter (List.mem_of_mem_filter hm)

theorem scalars_of_sound (hs : Sound writeDatabase profile) : Section.scalars profile = profile := by
  refine List.filter_eq_self.mpr fun ⟨key, value⟩ he => ?_
  obtain ⟨_, field, _, _, _, hset⟩ := hs.settled _ he
  cases hset <;> rfl

/-- The keys of a profile for reading, in their order. -/
theorem keys_derived (hs : Sound writeDatabase profile) : Settings.keys (derived profile)
    = (Settings.keys profile).filter fun key => databaseOut.declaresKey key && !isMigratorKey key := by
  have hset : Settings.keys (Settings.set (profile.filter fun e => !isMigratorKey e.1) "read-only?" (.bool true))
      = (Settings.keys profile).filter fun key => !isMigratorKey key := by
    obtain ⟨v, hv⟩ := Settings.has_iff_get?.mp (hs.complete "read-only?" (by decide))
    have hhas : Settings.has (profile.filter fun e => !isMigratorKey e.1) "read-only?" = true :=
      Settings.has_filter hv (by rw [isMigratorKey]; decide)
    rw [Settings.keys_set_of_has hhas, Settings.keys, Settings.keys, List.filter_map]
    rfl
  rw [derived, scalars_of_sound hs, ← List.filter_filter, ← hset, Settings.keys, Settings.keys, List.filter_map]
  rfl

theorem has_derived (hs : Sound writeDatabase profile) {name : String} (hn : IsShared name)
    (h : profile.has name = true) : (derived profile).has name = true := by
  rw [Settings.has_iff_mem_keys, keys_derived hs, List.mem_filter, isMigratorKey, hn.2]
  exact ⟨Settings.has_iff_mem_keys.mp h, Bool.and_eq_true_iff.mpr ⟨hn.1, rfl⟩⟩

/-- What is derived is sound for reading. -/
theorem sound_derived (hs : Sound writeDatabase profile) : Sound database (derived profile) where
  settled := by
    intro e he
    obtain ⟨hd, hm⟩ := mem_derived he
    obtain ⟨name, hname, field, hg⟩ := Spec.declaresKey_iff.mp hd
    obtain ⟨hf, rfl⟩ := Spec.get?_eq_some hg
    refine ⟨field.name, field, hname, declares_databaseIn field hf, hg, ?_⟩
    rcases hm with hm | rfl
    · obtain ⟨_, other, hother, _, hg', hset⟩ := hs.settled e hm
      cases hname.symm.trans hother
      cases (writeDatabase_get? field hf).symm.trans hg'
      exact hset
    · have hro : Named.name field = "read-only?" := (Value.text.inj hname).symm
      rw [hro] at hg
      have hfield : field = needed "read-only?" .boolean :=
        Option.some.inj (hg.symm.trans (rfl : databaseOut.get? "read-only?" = some (needed "read-only?" .boolean)))
      exact .boolean (congrArg Outgoing.kind hfield) true
  complete := by
    intro name hn
    obtain ⟨hshared, hwrite⟩ := isShared_of_mem_requiredNames name hn
    exact has_derived hs hshared (hs.complete name hwrite)
  filled := by
    intro field hf hd
    obtain ⟨hshared, hwrite⟩ := isShared_of_mem_requiredNames _ (mem_requiredNames_of_default field hf hd)
    exact has_derived hs hshared (hs.complete _ hwrite)

theorem deriveReadProfile_of_sound (hs : Sound writeDatabase profile) :
    deriveReadProfile profile = .ok (derived profile) := by
  rw [deriveReadProfile_eq, validateOutgoing_eq_ok_iff]
  exact ⟨(sound_derived hs).fits coherent_database, rfl⟩

theorem nodup_keys_derived (hn : (Settings.keys profile).Nodup) : (Settings.keys (derived profile)).Nodup := by
  have hscalar : (Settings.keys ((Section.scalars profile).filter fun e => !isMigratorKey e.1)).Nodup := by
    rw [Section.scalars, List.filter_filter]
    exact (List.filter_sublist.map _).nodup hn
  exact (List.filter_sublist.map _).nodup (Settings.nodup_keys_set hscalar "read-only?" (.bool true))

theorem get?_derived_readOnly : (derived profile).get? "read-only?" = some (.bool true) := by
  rw [derived, Spec.stripUnknown, Settings.get?_filter, Settings.get?_set_self]
  intro e _ hname
  rw [hname]
  decide

/-- Whatever reading shares with writing is taken over as it is. -/
theorem get?_derived (hs : Sound writeDatabase profile) {name : String} (hshared : IsShared name)
    (hne : "read-only?" ≠ name) : (derived profile).get? name = profile.get? name := by
  rw [derived, scalars_of_sound hs, Spec.stripUnknown, Settings.get?_filter, Settings.get?_set_of_ne _ hne,
    Settings.get?_filter]
  · intro e _ hname
    rw [hname, isMigratorKey, hshared.2]
    rfl
  · intro e _ hname
    rw [hname]
    exact hshared.1

end Stanza.Database
