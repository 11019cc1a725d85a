import Stanza.Proofs.Command.Sections
import Stanza.Proofs.Config.Resolution
import Stanza.Proofs.Redaction.Redacted
import Stanza.Proofs.Redaction.Resolution

/-! # Configurations that are shown without their secrets

What is shown of a configuration is the same whether secrets are hidden in it or not, so it is the same for every
document that differs in secrets only.
-/
namespace Stanza.Redaction

open Schema Dump

/-! ## JSON -/

def shownEntry (key value : Value) : Except Fault (Value × Value) := do
  let name ← digits key.display
  return (.text name, ← shade (.text name) <$> redactValue <$> plain value)

theorem shownEntry_of_sensitive {name : String} (h : isSensitive name = true) (s : String) :
    shownEntry (.text name) (.text s) = .ok (.text name, .text mark) := by
  have hshade : shade (.text name) (.text s) = .text mark := by
    rw [shade, isSensitiveKey, h]
    rfl
  exact congrArg (fun shown => Except.ok (Value.text name, shown)) hshade

theorem shownEntry_hideUnder (k : Value) {v : Value} (h : redactValue <$> plain (hide v) = redactValue <$> plain v) :
    shownEntry k (hideUnder k v) = shownEntry k v := by
  rw [hideUnder]
  split
  · next hs =>
    obtain ⟨hk, hv⟩ := Bool.and_eq_true_iff.mp hs
    obtain ⟨name, rfl, hname⟩ := exists_name_of_sensitive hk
    obtain ⟨s, rfl⟩ := Value.exists_text_of_isText hv
    rw [shownEntry_of_sensitive hname, shownEntry_of_sensitive hname]
  · rw [shownEntry, h, shownEntry]

theorem redactEntries_plainEntries_cons (k v : Value) (es : Settings) :
    redactEntries <$> plainEntries ((k, v) :: es) = (do
      let shown ← shownEntry k v
      return shown :: (← redactEntries <$> plainEntries es)) := by
  simp only [plainEntries, shownEntry, map_bind, map_pure, bind_map_left, redactEntries_eq_mapValues,
    Settings.mapValues_cons, bind_assoc, pure_bind]

mutual

/-- The plain form of a value is redacted to the same whether its secrets were hidden before. -/
theorem plain_hide : (v : Value) → redactValue <$> plain (hide v) = redactValue <$> plain v
  | .list items | .tuple items => by
    have hlist : ∀ items : List Value, redactValue <$> Value.list <$> plainItems items
        = Value.list <$> redactItems <$> plainItems items := by
      intro items
      rw [Functor.map_map, Functor.map_map]
      rfl
    rw [hide, plain, plain, hlist, hlist, plainItems_hideItems items]
  | .map es => by
    have hmap : ∀ es : Settings, redactValue <$> (Value.map ∘ Settings.ofPairs) <$> plainEntries es
        = (Value.map ∘ Settings.ofPairs) <$> redactEntries <$> plainEntries es := by
      intro es
      rw [Functor.map_map, Functor.map_map]
      simp only [Function.comp_def, redactValue, redactEntries_ofPairs]
    rw [hide, plain, plain, hmap, hmap, plainEntries_hideEntries es]
  | .null | .bool _ | .int _ | .float _ | .text _ | .period _ | .span _ | .path _ | .moment _ | .foreign _ => rfl

theorem plainItems_hideItems : (items : List Value) →
    redactItems <$> plainItems (hideItems items) = redactItems <$> plainItems items
  | [] => rfl
  | x :: xs => by
    have hcons : ∀ (x : Value) (xs : List Value), redactItems <$> plainItems (x :: xs) = (do
        let shown ← redactValue <$> plain x
        return shown :: (← redactItems <$> plainItems xs)) := by
      intro x xs
      simp only [plainItems, map_bind, map_pure, bind_map_left, redactItems]
    rw [hideItems, hcons, hcons, plain_hide x, plainItems_hideItems xs]

theorem plainEntries_hideEntries : (es : Settings) →
    redactEntries <$> plainEntries (hideEntries es) = redactEntries <$> plainEntries es
  | [] => rfl
  | (k, v) :: es => by
    have hhide : hideEntries ((k, v) :: es) = (k, hideUnder k v) :: hideEntries es := rfl
    rw [hhide, redactEntries_plainEntries_cons, redactEntries_plainEntries_cons, shownEntry_hideUnder k (plain_hide v),
      plainEntries_hideEntries es]

end

theorem hideEntries_hideExtra (extra : Settings) : hideEntries (hideExtra extra) = hideEntries extra := by
  have hunder : ∀ k v : Value, hideUnder k (hide v) = hideUnder k v := by
    intro k v
    rw [hideUnder, isText_hide, hide_hide, hideUnder]
  rw [hideEntries_eq_mapValues, hideEntries_eq_mapValues, hideExtra, Settings.mapValues_mapValues]
  simp only [hunder]

theorem hideEntries_toSettings (r : Section.Resolved Settings) :
    hideEntries (r.map conceal).toSettings = hideEntries r.toSettings := by
  cases r with
  | sole profile => exact hideEntries_conceal profile
  | named results =>
    have hunder : ∀ k es, hideUnder k (.map (conceal es)) = hideUnder k (.map es) := by
      intro k es
      rw [hideUnder_map, hideUnder_map, hideEntries_conceal]
    rw [hideEntries_eq_mapValues, hideEntries_eq_mapValues]
    simp only [Section.Resolved.map, Section.Resolved.toSettings, Settings.mapValues, List.map_map, Function.comp_def,
      hunder]

theorem hideEntries_copy (c : Config) : hideEntries (concealConfig c).copy = hideEntries c.copy := by
  have hoverlay : ∀ under above : Settings, hideEntries (Settings.overlay (thawEntries under) (thawEntries above))
      = Settings.overlay (thawEntries (hideEntries under)) (thawEntries (hideEntries above)) := by
    intro under above
    simp only [thawEntries_hideEntries]
    simp only [hideEntries_eq_mapValues, Settings.overlay_mapValues byText_hideUnder]
  have hcons : ∀ (name : String) (es fs : Settings),
      hideEntries ((.text name, .map es) :: fs) = (.text name, .map (hideEntries es)) :: hideEntries fs := by
    intro name es fs
    rw [← hideUnder_map]
    rfl
  simp only [Config.copy, hoverlay, hcons, concealConfig, Config.database, hideEntries_hideExtra, hideEntries_conceal,
    hideEntries_toSettings]

theorem redact_eq (v : Value) : redact v = if (redactValue v).isMap then redactValue v else .map [] := by
  cases v <;> rfl

/-- What is serialised of a configuration. -/
theorem redact_plain_concealConfig (c : Config) :
    redact <$> plain (.map (concealConfig c).copy) = redact <$> plain (.map c.copy) := by
  have hhide : ∀ es : Settings, redact <$> plain (.map (hideEntries es)) = redact <$> plain (.map es) := by
    intro es
    have hred : ∀ x : Except Fault Value, redact <$> x
        = (fun shown : Value => if shown.isMap then shown else .map []) <$> redactValue <$> x := by
      intro x
      rw [Functor.map_map, funext redact_eq]
    rw [hred, hred, ← plain_hide (.map es), hide]
  rw [← hhide, hideEntries_copy, hhide]

theorem json_concealConfig (c : Config) : json (concealConfig c) = json c := by
  have hrun : ∀ c, json c = redact <$> plain (.map c.copy) >>= fun shown => do
      return (← Json.write (.indented 2) 0 shown) ++ "\n" := by
    intro c
    rw [bind_map_left]
    rfl
  rw [hrun, hrun, redact_plain_concealConfig]

/-! ## Settings as they would be written -/

/-- A secret is written as it is, whatever it is. -/
theorem renderEntry_conceal {spec : SectionSpec} (hd : Discreet spec) (e : Value × Value) :
    (fun f => (f.1, concealUnder f.1 f.2)) <$> renderEntry spec.outgoing (e.1, concealUnder e.1 e.2)
      = (fun f => (f.1, concealUnder f.1 f.2)) <$> renderEntry spec.outgoing e := by
  rcases e with ⟨k, v⟩
  rcases concealUnder_cases k v with h | ⟨hk, s, rfl, h⟩
  · rw [h]
  · obtain ⟨name, rfl, hname⟩ := exists_name_of_sensitive hk
    have htext : ∀ t, (fun f : Value × Value => (f.1, concealUnder f.1 f.2)) <$>
        renderEntry spec.outgoing (.text name, .text t) = .ok (.text name, .text mark) := by
      intro t
      have hmark : (Value.text name, concealUnder (.text name) (.text t)) = (.text name, .text mark) :=
        congrArg (Value.text name, ·) (concealUnder_text hname t)
      rw [renderEntry]
      cases hf : spec.outgoing.get? name with
      | none => exact congrArg Except.ok hmark
      | some field =>
        simp only [hd.outgoing_kind hf hname]
        exact congrArg Except.ok hmark
    rw [h, htext, htext]

theorem render_conceal {spec : SectionSpec} (hd : Discreet spec) (es : Settings) :
    conceal <$> render spec.outgoing (conceal es) = conceal <$> render spec.outgoing es := by
  have hrun : ∀ es, conceal <$> render spec.outgoing es
      = es.mapM fun e => (fun f => (f.1, concealUnder f.1 f.2)) <$> renderEntry spec.outgoing e := by
    intro es
    rw [← map_mapM]
    rfl
  rw [hrun, hrun, conceal, Settings.mapValues, List.mapM_map]
  simp only [Function.comp_def, renderEntry_conceal hd]

theorem isDefault_conceal {key : String} (h : isSensitive key = false) (spec : SectionSpec) (raw : Settings) :
    isDefault spec (conceal raw) key = isDefault spec raw key := by
  simp only [isDefault, get?_conceal h]

theorem rawSettings_conceal {spec : SectionSpec} (hd : Discreet spec) {retired : List String}
    (h : ∀ key ∈ retired, key ∈ plainNames) (es : Settings) :
    conceal <$> rawSettings spec (conceal es) retired = conceal <$> rawSettings spec es retired := by
  have hdigits : ∀ {x y : Except Text.DigitLimitError Settings}, conceal <$> x = conceal <$> y →
      conceal <$> digits x = conceal <$> digits y := by
    intro x y hxy
    rw [digits, digits, ← Except.mapError_map, hxy, Except.mapError_map]
  let step (raw : Settings) (key : String) : Except Fault Settings := do
    return if ← isDefault spec raw key then raw.erase key else raw
  have hstep : ∀ raw, ∀ key ∈ retired, step (conceal raw) key = conceal <$> step raw key := by
    intro raw key hkey
    have herase : (conceal raw).erase key = conceal (raw.erase key) := Settings.erase_mapValues _ raw key
    simp only [step, isDefault_conceal (isSensitive_of_mem (h key hkey)), herase, map_bind, map_pure, apply_ite conceal]
  have hrun : ∀ es, conceal <$> rawSettings spec es retired
      = conceal <$> digits (render spec.outgoing es) >>= fun raw => retired.foldlM step raw := by
    intro es
    rw [bind_map_left]
    simp only [foldlM_eq_map hstep, ← map_bind]
    rfl
  rw [hrun, hrun, hdigits (render_conceal hd es)]

/-! ## Written sections -/

theorem redactEntries_append (es fs : Settings) : redactEntries (es ++ fs) = redactEntries es ++ redactEntries fs := by
  simp only [redactEntries_eq_mapValues, Settings.mapValues_append]

theorem redactEntries_block (k : Value) (s es : Settings) :
    redactEntries ((k, .map s) :: es) = (k, .map (redactEntries s)) :: redactEntries es := by
  rw [redactEntries_eq_map, List.map_cons, redactEntry_map, ← redactEntries_eq_map]

theorem redactEntries_thawEntries_conceal (es : Settings) :
    redactEntries (thawEntries (conceal es)) = redactEntries (thawEntries es) := by
  rw [← redactEntries_hideEntries, ← thawEntries_hideEntries, hideEntries_conceal, thawEntries_hideEntries,
    redactEntries_hideEntries]

/-- Other sections are looked up in a copy and hidden or redacted there. -/
theorem redactEntries_extras (copy extra : Settings) :
    redactEntries (extra.filterMap (extraBlock? (hideEntries copy)))
      = redactEntries (extra.filterMap (extraBlock? copy)) := by
  have hblock : ∀ k s, redactEntry (k, .map (hideEntries s)) = redactEntry (k, .map s) := by
    intro k s
    rw [redactEntry_map, redactEntry_map, redactEntries_hideEntries]
  have hentry : ∀ e, (extraBlock? (hideEntries copy) e).map redactEntry = (extraBlock? copy e).map redactEntry := by
    intro e
    rcases e with ⟨key, contents⟩
    cases key with
    | text name =>
      have hget : Settings.get? (hideEntries copy) name = (copy.get? name).map (hideUnder (.text name)) := by
        rw [hideEntries_eq_mapValues]
        exact Settings.get?_mapValues _ copy name
      rw [extraBlock?, hget, extraBlock?]
      cases copy.get? name with
      | none => rfl
      | some v =>
        cases v with
        | map s =>
          rw [Option.map_some, hideUnder_map]
          exact congrArg some (hblock _ s)
        | _ =>
          rw [Option.map_some, hideUnder]
          cases isSensitiveKey (.text name) <;> rfl
    | _ => rfl
  rw [redactEntries_eq_map, redactEntries_eq_map, List.map_filterMap, List.map_filterMap, funext hentry]

theorem filterMap_extraBlock?_hideExtra (copy extra : Settings) :
    (hideExtra extra).filterMap (extraBlock? copy) = extra.filterMap (extraBlock? copy) := by
  rw [hideExtra, Settings.mapValues, List.filterMap_map]
  refine List.filterMap_congr fun e _ => ?_
  rcases e with ⟨key, contents⟩
  cases key <;> rfl

theorem databaseKeys_plain : ∀ key ∈ Retirement.databaseKeys, key ∈ plainNames := by decide

theorem commandProcessingKeys_plain : ∀ key ∈ Retirement.commandProcessingKeys, key ∈ plainNames := by decide

/-- What is shown of the sections that are written out. -/
theorem sections_concealConfig (c : Config) (host : Host) :
    redactEntries <$> sections (concealConfig c) host = redactEntries <$> sections c host := by
  let header (name : Option String) : Value := .text (Header.format { name := "database", subsection := name })
  let block (e : Option String × Settings) : Except Fault (Value × Value) := do
    return (header e.1, .map (redactEntries (← conceal <$> rawSettings writeDatabase e.2 Retirement.databaseKeys)))
  have hprofiles : ∀ es : List (Option String × Settings), (redactEntries <$> es.mapM fun e => do
      return (header e.1, Value.map (← rawSettings writeDatabase e.2 Retirement.databaseKeys))) = es.mapM block := by
    intro es
    rw [funext redactEntries_eq_map, map_mapM]
    refine mapM_congr fun e _ => ?_
    simp only [block, map_bind, map_pure, bind_map_left, redactEntry_map, redactEntries_conceal]
  have hrun : ∀ c : Config, redactEntries <$> sections c host = (do
      let profiles ← c.profiles.toList.mapM block
      let readProfile ← conceal <$> rawSettings Schema.database c.readProfile Retirement.databaseKeys
      let commandProcessing ←
        conceal <$> rawSettings (Schema.commandProcessing host) c.commandProcessing Retirement.commandProcessingKeys
      let puppetdb ← conceal <$> rawSettings Schema.puppetdb c.puppetdb []
      let developer ← conceal <$> rawSettings Schema.developer c.developer []
      return redactEntries [(.text (Header.format { name := "global" }), .map (thawEntries c.globals))] ++ profiles
        ++ redactEntries [(.text (Header.format { name := "read-database" }), .map readProfile),
          (.text (Header.format { name := "command-processing" }), .map commandProcessing),
          (.text (Header.format { name := "puppetdb" }), .map puppetdb),
          (.text (Header.format { name := "developer" }), .map developer)]
        ++ redactEntries (c.extra.filterMap (extraBlock? c.copy))) := by
    intro c
    simp only [sections, map_bind, map_pure, ← hprofiles, bind_map_left, Config.get?_copy_global, redactEntries_append,
      redactEntries_block, redactEntries_conceal]
    rfl
  have hblock : ∀ e : Option String × Settings, block (e.1, conceal e.2) = block e := by
    intro e
    simp only [block, rawSettings_conceal discreet_writeDatabase databaseKeys_plain]
  have hextra : redactEntries ((concealConfig c).extra.filterMap (extraBlock? (concealConfig c).copy))
      = redactEntries (c.extra.filterMap (extraBlock? c.copy)) := by
    rw [← redactEntries_extras, hideEntries_copy, redactEntries_extras]
    exact congrArg redactEntries (filterMap_extraBlock?_hideExtra _ _)
  have hnone : ∀ key ∈ ([] : List String), key ∈ plainNames := fun _ h => absurd h List.not_mem_nil
  rw [hrun, hrun, hextra]
  simp only [concealConfig, Section.Resolved.toList_map, List.mapM_map, Function.comp_def, hblock,
    rawSettings_conceal discreet_database databaseKeys_plain, rawSettings_conceal discreet_puppetdb hnone,
    rawSettings_conceal (discreet_commandProcessing host) commandProcessingKeys_plain,
    rawSettings_conceal discreet_developer hnone, redactEntries_block, redactEntries_thawEntries_conceal]

theorem text_concealConfig (c : Config) (host : Host) : text (concealConfig c) host = text c host := by
  have hrun : ∀ c, text c host = redactEntries <$> sections c host >>= fun shown => ini (Settings.ofPairs shown) := by
    intro c
    simp only [text, redact, redactEntries_ofPairs, bind_map_left]
  rw [hrun, hrun, sections_concealConfig]

/-! ## Documents that differ in secrets -/

structure ShownAlike (c d : Config) : Prop where
  text : ∀ host, text c host = text d host
  data : redact <$> plain (.map c.copy) = redact <$> plain (.map d.copy)
  json : json c = json d

theorem shownAlike_of_concealConfig {c d : Config} (h : concealConfig c = concealConfig d) : ShownAlike c d where
  text host := by rw [← text_concealConfig, h, text_concealConfig]
  data := by rw [← redact_plain_concealConfig, h, redact_plain_concealConfig]
  json := by rw [← json_concealConfig, h, json_concealConfig]

section

variable [Pattern.Compiler]

/-- Documents that differ in secrets warn alike, and fail alike or are shown alike. -/
theorem ofDocument_of_alike {document other : Document} (h : List.Forall₂ AlikeSection document other) (host : Host) :
    (Outcome.ofDocument document host).warnings = (Outcome.ofDocument other host).warnings ∧
      ((∃ e, (Outcome.ofDocument document host).result = .error e ∧ (Outcome.ofDocument other host).result = .error e) ∨
        ∃ o p, (Outcome.ofDocument document host).result = .ok o ∧ (Outcome.ofDocument other host).result = .ok p ∧
          o.report = p.report ∧ Option.Rel ShownAlike o.config? p.config?) := by
  have hhidden : concealOutcome <$> Outcome.ofDocument document host
      = concealOutcome <$> Outcome.ofDocument other host := by
    rw [← ofDocument_hideDocument, hideDocument_eq_of_alike h, ofDocument_hideDocument]
  have hwarnings := congrArg Logged.warnings hhidden
  have hresult := congrArg Logged.result hhidden
  rw [Logged.warnings_map, Logged.warnings_map] at hwarnings
  rw [Logged.result_map, Logged.result_map] at hresult
  refine ⟨hwarnings, ?_⟩
  cases hx : (Outcome.ofDocument document host).result with
  | error e =>
    cases hy : (Outcome.ofDocument other host).result with
    | error f =>
      rw [hx, hy] at hresult
      cases hresult
      exact .inl ⟨e, rfl, rfl⟩
    | ok p =>
      rw [hx, hy] at hresult
      cases hresult
  | ok o =>
    rw [hx] at hresult
    obtain ⟨p, hy, hp⟩ := Except.map_eq_ok_iff.mp hresult.symm
    rcases o with ⟨report, config?⟩
    rcases p with ⟨report', config'?⟩
    obtain ⟨rfl, hconfig⟩ := Outcome.mk.inj hp
    refine .inr ⟨_, _, rfl, hy, rfl, ?_⟩
    cases config? with
    | none =>
      cases config'? with
      | none => exact .none
      | some d => cases hconfig
    | some c =>
      cases config'? with
      | none => cases hconfig
      | some d => exact .some (shownAlike_of_concealConfig (Option.some.inj hconfig).symm)

end

/-- Both the password of the database and the token of another program differ. -/
theorem ofDocument_of_alike_password :
    ∃ o p c d, (Outcome.ofDocument [
        (.text "database", .map [(.text "subname", .text "//db"), (.text "password", .text "first")]),
        (.text "notes", .map [(.text "remote", .map [(.text "token", .text "a")])])] ⟨4, 8192⟩).result = .ok o ∧
      (Outcome.ofDocument [
        (.text "database", .map [(.text "subname", .text "//db"), (.text "password", .text "second")]),
        (.text "notes", .map [(.text "remote", .map [(.text "token", .text "b")])])] ⟨4, 8192⟩).result = .ok p ∧
      o.config? = some c ∧ p.config? = some d ∧ ShownAlike c d := by
  have hpassword : isSensitive "password" = true := by decide +kernel
  have htoken : isSensitive "token" = true := by decide +kernel
  have hregular : Database.Regular (Database.written []
      (.sole [(.text "subname", .text "//db"), (.text "password", .text "first")])
      [("notes", .map [(.text "remote", .map [(.text "token", .text "a")])])]) := by
    refine Database.regular_written (by simp [Section.Resolved.toList]) List.nodup_nil
      (by simp [Database.entries, Settings.keys]) ?_
    simp only [List.nil_append, List.forall_mem_cons, List.not_mem_nil, false_imp_iff, implies_true, and_true]
    decide
  obtain ⟨profile, ha⟩ : ∃ profile,
      Database.Accepts [(.text "subname", .text "//db"), (.text "password", .text "first")] profile := ⟨_, rfl, rfl⟩
  have hdatabases := (Database.resolve_parts_eq_ok_iff hregular (r := ⟨.sole profile, Database.derived profile⟩)).mpr
    ⟨Database.resolve_database_written (by simp [Section.Resolved.toList])
      (.sole ⟨by decide, fun name => (Database.result_fixUp_congr none name).mp ha.1⟩),
      fun e he => List.mem_singleton.mp he ▸ ha.2, ha.deriveReadProfile⟩
  obtain ⟨globals, hglobals⟩ : ∃ globals, Config.globalsOf .null = .ok globals := ⟨_, rfl⟩
  obtain ⟨developer, hdeveloper⟩ : ∃ out, (Config.resolveSection Schema.developer "developer" .null).result = .ok out :=
    ⟨_, rfl⟩
  obtain ⟨puppetdb, hpuppetdb⟩ : ∃ out, (Config.resolveSection Schema.puppetdb "puppetdb" .null).result = .ok out :=
    ⟨_, rfl⟩
  obtain ⟨commands, hcommands⟩ : ∃ out, (Config.resolveSection (Schema.commandProcessing ⟨4, 8192⟩) "command-processing"
    .null).result = .ok out := ⟨_, rfl⟩
  have hconfig := Config.ofDocument_eq_ok_iff.mpr ⟨_, _, _, _, _, _, Config.index_of_regular hregular,
    ⟨hglobals, hdatabases, hdeveloper, hcommands, hpuppetdb⟩, rfl⟩
  obtain ⟨ho, hc⟩ := Outcome.ofDocument_eq_ok_iff.mpr ⟨_, Config.index_of_regular hregular, rfl, hconfig, rfl⟩
  have hsettings : List.Forall₂ AlikeSetting [(.text "subname", .text "//db"), (.text "password", .text "first")]
      [(.text "subname", .text "//db"), (.text "password", .text "second")] :=
    .cons (.same _) (.cons (.secret "password" "first" "second" hpassword) .nil)
  have hnotes : Alike (.map [(.text "remote", .map [(.text "token", .text "a")])])
      (.map [(.text "remote", .map [(.text "token", .text "b")])]) :=
    .map (.cons (.value (.text "remote") (.map (.cons (.secret "token" "a" "b" htoken) .nil))) .nil)
  have halike := ofDocument_of_alike (.cons (.settings (.text "database") hsettings)
    (.cons (.extra (.text "notes") (by decide) hnotes) .nil)) ⟨4, 8192⟩
  rcases halike.2 with ⟨e, he, _⟩ | ⟨o, ⟨report, config?⟩, ho', hp, _, hshown⟩
  · cases ho.symm.trans he
  · cases ho.symm.trans ho'
    rw [hc] at hshown
    cases hshown with
    | some hcd => exact ⟨_, _, _, _, ho, hp, hc, rfl, hcd⟩

end Stanza.Redaction
