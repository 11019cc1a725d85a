import Stanza.Config.Resolution
import Stanza.Proofs.Database.Cascade
import Stanza.Proofs.Redaction.Schema

/-! # Databases without their secrets

The password is copied for migrations, layered and handed to the profile for reading, but nothing is made of it on the
way: databases with hidden secrets have the profiles of the databases themselves with hidden secrets.
-/
namespace Stanza.Redaction

open Schema Database Section

/-! ## Profiles -/

theorem plain_user : isSensitive "user" = false := isSensitive_of_mem (by decide)

theorem plain_username : isSensitive "username" = false := isSensitive_of_mem (by decide)

theorem plain_eventsTtl : isSensitive "resource-events-ttl" = false := isSensitive_of_mem (by decide)

theorem plain_reportTtl : isSensitive "report-ttl" = false := isSensitive_of_mem (by decide)

theorem plain_subname : isSensitive "subname" = false := isSensitive_of_mem (by decide)

theorem plain_blacklist : isSensitive "facts-blacklist" = false := isSensitive_of_mem (by decide)

theorem plain_blacklistType : isSensitive "facts-blacklist-type" = false := isSensitive_of_mem (by decide)

theorem plain_readOnly : isSensitive "read-only?" = false := isSensitive_of_mem (by decide)

theorem plain_migratorName : isSensitive "migrator-username" = false := isSensitive_of_mem (by decide)

theorem setDefault_conceal (es : Settings) (name : String) (v : Value) :
    (conceal es).setDefault name (concealUnder (.text name) v) = conceal (es.setDefault name v) :=
  Settings.setDefault_mapValues byText_concealUnder es name v

theorem defaultEventRetention_conceal (profile : Settings) :
    defaultEventRetention (conceal profile) = conceal (defaultEventRetention profile) := by
  rw [defaultEventRetention, defaultEventRetention, get_conceal plain_eventsTtl, get_conceal plain_reportTtl,
    has_conceal, set_conceal_of_not_sensitive plain_eventsTtl]
  split <;> rfl

theorem userOf_conceal (profile : Settings) : userOf (conceal profile) = userOf profile := by
  rw [userOf, get_conceal plain_user, get_conceal plain_username, ← userOf]

theorem withUser_conceal (profile : Settings) : withUser (conceal profile) = conceal (withUser profile) := by
  rw [withUser, withUser, userOf_conceal, set_conceal_of_not_sensitive plain_user,
    set_conceal_of_not_sensitive plain_username]
  split <;> rfl

theorem reconcileUser_conceal (profile : Settings) (name : Option String) :
    reconcileUser (conceal profile) name = conceal <$> reconcileUser profile name := by
  simp only [reconcileUser, get_conceal plain_user, get_conceal plain_username, withUser_conceal]
  split
  · simp only [map_bind, map_pure]
  · simp only [map_pure]

/-- The password for migrations is hidden like the one that it is copied from. -/
theorem withMigrator_conceal (profile : Settings) :
    withMigrator (conceal profile) = conceal (withMigrator profile) := by
  have hpassword : ∀ v, concealUnder (.text "password") v = concealUnder (.text "migrator-password") v := by
    intro v
    have hboth : isSensitive "password" = isSensitive "migrator-password" := by decide +kernel
    rw [concealUnder, concealUnder, isSensitiveKey, isSensitiveKey, hboth]
  have hname : (conceal profile).setDefault "migrator-username" ((conceal profile).get "user")
      = conceal (profile.setDefault "migrator-username" (profile.get "user")) := by
    rw [get_conceal plain_user, ← setDefault_conceal, concealUnder_of_not_sensitive plain_migratorName]
  simp only [withMigrator, hname]
  rw [get?_conceal_eq]
  cases profile.get? "password" with
  | none => rfl
  | some password =>
    rw [Option.map_some]
    dsimp only
    rw [hpassword, setDefault_conceal]

theorem defaultMigrator_conceal (profile : Settings) :
    defaultMigrator (conceal profile) = conceal <$> defaultMigrator profile := by
  rw [defaultMigrator, defaultMigrator, get_conceal plain_user, withMigrator_conceal]
  split <;> rfl

theorem fixUp_conceal (name : Option String) (settings : Settings) :
    conceal <$> fixUp name (conceal settings) = conceal <$> fixUp name settings := by
  let migrate (profile : Settings) : Logged Settings :=
    if profile.has "user" then liftM (defaultMigrator profile) else pure profile
  have hmigrate : ∀ profile, conceal <$> migrate profile = migrate (conceal profile) := by
    intro profile
    simp only [migrate, has_conceal, defaultMigrator_conceal, Logged.lift_map]
    split
    · rfl
    · rw [map_pure]
  have hrun : ∀ raw, conceal <$> fixUp name raw = (do
      let converted ← Schema.resolveSection writeDatabase raw (label name)
      let profile ← reconcileUser (defaultEventRetention (conceal converted)) name
      migrate profile) := by
    intro raw
    simp only [defaultEventRetention_conceal, reconcileUser_conceal, bind_map_left, ← hmigrate, ← map_bind]
    rfl
  rw [hrun, hrun]
  exact bind_congr_of_map (resolveSection_conceal discreet_writeDatabase settings (label name)) fun converted => do
    let profile ← reconcileUser (defaultEventRetention converted) name
    migrate profile

section

variable [Pattern.Compiler]

theorem validate_conceal (profile : Settings) (name : Option String) :
    validate (conceal profile) name = validate profile name := by
  simp only [validate, checkSubname, checkRetention, blacklist, get_conceal plain_subname, get_conceal plain_eventsTtl,
    get_conceal plain_reportTtl, get_conceal plain_blacklist, get_conceal plain_blacklistType]

/-! ## The profile for reading -/

omit [Pattern.Compiler] in
theorem discreet_databaseOut (es : Settings) (heading : String) :
    validateOutgoing databaseOut (conceal es) heading = conceal <$> validateOutgoing databaseOut es heading :=
  validateOutgoing_conceal discreet_database es heading

omit [Pattern.Compiler] in
theorem deriveReadProfile_conceal (primary : Settings) :
    deriveReadProfile (conceal primary) = conceal <$> deriveReadProfile primary := by
  have hscalar : ∀ k v : Value, (!(concealUnder k v).isMap) = !v.isMap := by
    intro k v
    rw [isMap_concealUnder]
  simp only [deriveReadProfile, scalars]
  rw [filter_conceal _ hscalar, filter_conceal _ fun _ _ => rfl, set_conceal_of_not_sensitive plain_readOnly,
    stripUnknown_conceal, discreet_databaseOut]

theorem readProfileOf_conceal (settings : Settings) :
    conceal <$> readProfileOf (conceal settings) = conceal <$> readProfileOf settings := by
  let check (profile : Settings) : Logged Settings := do
    (checkSubname profile "read-database" : Except Fault Unit)
    let _ ← (blacklist profile : Except Fault (List Pattern))
    return profile
  have hcheck : ∀ profile, conceal <$> check profile = check (conceal profile) := by
    intro profile
    simp only [check, checkSubname, blacklist, get_conceal plain_subname, get_conceal plain_blacklist,
      get_conceal plain_blacklistType, map_bind, map_pure]
  have hrun : ∀ raw, conceal <$> readProfileOf raw
      = Schema.resolveSection Schema.database raw "read-database" >>= fun profile => check (conceal profile) := by
    intro raw
    simp only [← hcheck, ← map_bind]
    rfl
  rw [hrun, hrun]
  exact bind_congr_of_map (resolveSection_conceal discreet_database settings "read-database") check

theorem readProfile_conceal (given : Value) (primary : Settings) :
    conceal <$> readProfile (concealContents given) (.map (conceal primary))
      = conceal <$> readProfile given (.map primary) := by
  cases given with
  | null =>
    change conceal <$> (liftM (deriveReadProfile (conceal primary)) : Logged Settings)
      = conceal <$> (liftM (deriveReadProfile primary) : Logged Settings)
    rw [deriveReadProfile_conceal, ← Logged.lift_map, ← Logged.lift_map, Functor.map_map]
    simp only [conceal_conceal]
  | map settings => exact readProfileOf_conceal settings
  | _ => rfl

end

/-! ## Sections -/

def concealSection (s : Section) : Section where
  settings := conceal s.settings
  subsections := s.subsections.map fun e => (e.1, conceal e.2)

theorem cascade_conceal (s : Section) : cascade (concealSection s) = concealSection (cascade s) := by
  have hlayer : ∀ e : String × Settings, (e.1, layer (some e.1) (conceal s.settings) (conceal e.2))
      = (e.1, conceal (layer (some e.1) s.settings e.2)) := by
    intro e
    exact congrArg (e.1, ·) (Settings.overlay_mapValues byText_concealUnder s.settings e.2)
  simp only [cascade, concealSection, List.map_map, Function.comp_def, hlayer]

theorem hasSubsections_conceal (s : Section) : (concealSection s).hasSubsections = s.hasSubsections := by
  rw [hasSubsections, concealSection, List.isEmpty_map, hasSubsections]

theorem resolve_concealSection (s : Section) :
    Resolved.map conceal <$> (concealSection s).resolve (fun name _ settings => fixUp name settings)
      = Resolved.map conceal <$> s.resolve fun name _ settings => fixUp name settings := by
  have hrun : ∀ t : Section, Resolved.map conceal <$> t.resolve (fun name _ settings => fixUp name settings) = (do
      let wide ← conceal <$> fixUp none t.settings
      if t.hasSubsections then
        Resolved.named <$> t.subsections.mapM fun e => (e.1, ·) <$> conceal <$> fixUp (some e.1) e.2
      else return .sole wide) := by
    intro t
    have hparts : ∀ e : String × Settings, (e.1, ·) <$> conceal <$> fixUp (some e.1) e.2
        = (fun p : String × Settings => (p.1, conceal p.2)) <$> (e.1, ·) <$> fixUp (some e.1) e.2 := by
      intro e
      rw [Functor.map_map, Functor.map_map]
    simp only [Section.resolve, map_bind, bind_map_left]
    refine congrArg _ (funext fun wide => ?_)
    split
    · simp only [bind_pure_comp, hparts]
      rw [← map_mapM, Functor.map_map, Functor.map_map]
      rfl
    · rw [map_pure]
      rfl
  rw [hrun, hrun, hasSubsections_conceal]
  simp only [concealSection, fixUp_conceal, List.mapM_map, Function.comp_def]

end Stanza.Redaction
