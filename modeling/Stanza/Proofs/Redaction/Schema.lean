import Stanza.Proofs.Logged
import Stanza.Proofs.Redaction.Concealed
import Stanza.Proofs.Schema.Stages
import Stanza.Schema.Catalogue

/-! # Sections without their secrets

The fields of the catalogue that name secrets take any text and keep it. So a section with hidden secrets is checked,
completed and converted like the section itself, with the same warnings and the same errors, into the same settings with
hidden secrets.
-/
namespace Stanza

/-! ## Computations under a change of their results -/

section

variable {m : Type → Type} [Monad m] [LawfulMonad m] {α β γ : Type}

theorem map_mapM (g : β → γ) (f : α → m β) (xs : List α) :
    List.map g <$> xs.mapM f = xs.mapM fun x => g <$> f x := by
  induction xs with
  | nil => simp
  | cons x xs ih =>
    simp only [List.mapM_cons, map_bind, map_pure, List.map_cons, bind_map_left, ← ih]

/-- What looks at no more than a part of a result does not tell computations apart that agree on this part. -/
theorem bind_congr_of_map {g : α → β} {x y : m α} (h : g <$> x = g <$> y) (f : β → m γ) :
    (x >>= fun a => f (g a)) = y >>= fun a => f (g a) := by
  rw [← bind_map_left, h, bind_map_left]

/-- A fold over what is under a change runs like the fold itself, if each step does. -/
theorem foldlM_eq_map {c : β → γ} {f : β → α → m β} {g : γ → α → m γ} {xs : List α}
    (h : ∀ b, ∀ x ∈ xs, g (c b) x = c <$> f b x) (b : β) : xs.foldlM g (c b) = c <$> xs.foldlM f b := by
  induction xs generalizing b with
  | nil => simp
  | cons x xs ih =>
    have htail := ih fun b y hy => h b y (List.mem_cons_of_mem _ hy)
    simp only [List.foldlM_cons, h b x List.mem_cons_self, bind_map_left, map_bind, htail]

theorem mapM_congr {f g : α → m β} {xs : List α} (h : ∀ x ∈ xs, f x = g x) : xs.mapM f = xs.mapM g := by
  induction xs with
  | nil => rfl
  | cons x xs ih =>
    rw [List.mapM_cons, List.mapM_cons, h x List.mem_cons_self, ih fun y hy => h y (List.mem_cons_of_mem _ hy)]

end

theorem Except.mapError_map {ε ε' α β : Type} (f : ε → ε') (g : α → β) (x : Except ε α) :
    (g <$> x).mapError f = g <$> x.mapError f := by
  cases x <;> rfl

theorem Logged.lift_map {α β : Type} (g : α → β) (x : Except Fault α) :
    (liftM (g <$> x) : Logged β) = g <$> (liftM x : Logged α) := by
  cases x <;> rfl

namespace Redaction

open Schema

/-! ## Fields -/

def plainNames : List String := [
  "conn-max-age", "conn-lifetime", "maximum-pool-size", "subname", "user", "username", "migrator-username",
  "syntax_pgs", "read-only?", "partition-conn-min", "partition-conn-max", "partition-count", "stats", "log-statements",
  "connection-timeout", "facts-blacklist", "facts-blacklist-type", "schema-check-interval", "classname",
  "conn-keep-alive", "log-slow-statements", "statements-cache-size", "subprotocol", "gc-interval", "report-ttl",
  "node-purge-ttl", "node-purge-gc-batch-limit", "node-ttl", "resource-events-ttl", "migrate", "certificate-whitelist",
  "historical-catalogs-limit", "disable-update-checking", "add-agent-report-filter", "pretty-print", "max-enqueued",
  "threads", "max-command-size", "reject-large-commands", "concurrent-writes", "max-frame-size", "store-usage",
  "temp-usage", "memory-usage", "product-name", "update-server"]

theorem all_plainNames : (plainNames.all fun name => !isSensitive name) = true := by decide +kernel

theorem isSensitive_of_mem {name : String} (h : name ∈ plainNames) : isSensitive name = false := by
  simpa using List.all_eq_true.mp all_plainNames name h

/-- The fields that name secrets are texts without a default. -/
structure Discreet (spec : SectionSpec) : Prop where
  shape : ∀ f ∈ spec.incoming.fields, f.name ∈ plainNames ∨ (f.shape = .text ∧ f.default.value.isNull = true)
  kind : ∀ f ∈ spec.outgoing.fields, f.name ∈ plainNames ∨ f.kind = .text

theorem discreet_writeDatabase : Discreet writeDatabase := ⟨by decide +kernel, by decide +kernel⟩

theorem discreet_database : Discreet database := ⟨by decide +kernel, by decide +kernel⟩

theorem discreet_puppetdb : Discreet puppetdb := ⟨by decide +kernel, by decide +kernel⟩

theorem discreet_developer : Discreet developer := ⟨by decide +kernel, by decide +kernel⟩

theorem discreet_commandProcessing (host : Host) : Discreet (commandProcessing host) := by
  have hplain : ∀ name ∈ ["threads", "max-command-size", "reject-large-commands", "concurrent-writes", "max-frame-size",
      "store-usage", "temp-usage", "memory-usage"], name ∈ plainNames := by decide +kernel
  refine ⟨fun f hf => .inl (hplain _ ?_), fun f hf => .inl (hplain _ ?_)⟩
  · exact List.mem_map_of_mem (f := Incoming.name) hf
  · have hnames : f.name ∈ ["threads", "max-command-size", "reject-large-commands", "concurrent-writes",
        "max-frame-size", "memory-usage", "store-usage", "temp-usage"] := List.mem_map_of_mem (f := Outgoing.name) hf
    simp only [List.mem_cons, List.not_mem_nil, or_false] at hnames ⊢
    tauto

theorem Discreet.outgoing_kind {spec : SectionSpec} (hd : Discreet spec) {name : String} {field : Outgoing}
    (hf : spec.outgoing.get? name = some field) (hs : isSensitive name = true) : field.kind = .text := by
  obtain ⟨hmem, rfl⟩ := Spec.get?_eq_some hf
  refine (hd.kind field hmem).resolve_left fun hplain => ?_
  rw [show Named.name field = field.name from rfl, isSensitive_of_mem hplain] at hs
  cases hs

/-! ## Checks of raw settings -/

theorem stripUnknown_conceal {α : Type} [Named α] (spec : Spec α) (es : Settings) :
    spec.stripUnknown (conceal es) = conceal (spec.stripUnknown es) :=
  filter_conceal _ (fun _ _ => rfl) es

theorem unknownKeys_conceal {α : Type} [Named α] (spec : Spec α) (es : Settings) :
    spec.unknownKeys (conceal es) = spec.unknownKeys es := by
  rw [Spec.unknownKeys, keys_conceal, ← Spec.unknownKeys]

/-- Any text will do for a secret. -/
theorem incomingIssue?_conceal {heading : String} {field : Incoming}
    (h : field.name ∈ plainNames ∨ (field.shape = .text ∧ field.default.value.isNull = true)) (es : Settings) :
    incomingIssue? heading (conceal es) field = incomingIssue? heading es field := by
  simp only [incomingIssue?, get_conceal_eq]
  rcases h with h | ⟨hshape, _⟩
  · rw [concealUnder_of_not_sensitive (isSensitive_of_mem h)]
  · rcases concealUnder_cases (.text field.name) (es.get field.name) with hv | ⟨_, s, hs, hv⟩
    · rw [hv]
    · rw [hv, hs]
      simp only [shapeProblem?, hshape]
      rfl

theorem validateIncoming_conceal {spec : SectionSpec} (hd : Discreet spec) (es : Settings) (heading : String) :
    validateIncoming spec.incoming (conceal es) heading = conceal <$> validateIncoming spec.incoming es heading := by
  have hissues : ∀ data, collectIssues (incomingIssue? heading (conceal data)) spec.incoming.fields =
      collectIssues (incomingIssue? heading data) spec.incoming.fields := by
    intro data
    rw [collectIssues, mapM_congr fun f hf => incomingIssue?_conceal (hd.shape f hf) data, ← collectIssues]
  simp only [validateIncoming, warnUnknown, unknownKeys_conceal, stripUnknown_conceal, hissues, map_bind, map_pure]

/-! ## Defaults -/

theorem fillDefault_conceal {field : Incoming}
    (h : field.name ∈ plainNames ∨ (field.shape = .text ∧ field.default.value.isNull = true)) (es : Settings) :
    fillDefault (conceal es) field = conceal (fillDefault es field) := by
  rw [fillDefault, fillDefault, has_conceal]
  rcases h with h | ⟨_, hnull⟩
  · rw [set_conceal_of_not_sensitive (isSensitive_of_mem h)]
    split <;> rfl
  · rw [hnull, Bool.or_true]
    rfl

theorem fillDefaults_conceal {spec : SectionSpec} (hd : Discreet spec) (es : Settings) :
    fillDefaults spec.incoming (conceal es) = conceal (fillDefaults spec.incoming es) := by
  have hnull : ∀ k v : Value, (!(concealUnder k v).isNull) = !v.isNull := by
    intro k v
    rw [isNull_concealUnder]
  rw [fillDefaults, filter_conceal _ hnull, fillDefaults]
  have hfields := hd.shape
  generalize spec.incoming.fields = fields at hfields
  generalize es.filter (fun e => !e.2.isNull) = data
  induction fields generalizing data with
  | nil => rfl
  | cons f fields ih =>
    rw [List.foldl_cons, List.foldl_cons, fillDefault_conceal (hfields f List.mem_cons_self)]
    exact ih (fun g hg => hfields g (List.mem_cons_of_mem _ hg)) _

/-! ## Conversion -/

def concealEntry : (Value × Value) ⊕ Issue → (Value × Value) ⊕ Issue :=
  Sum.map (fun e => (e.1, concealUnder e.1 e.2)) id

theorem settingsOf_map_concealEntry (xs : List ((Value × Value) ⊕ Issue)) :
    settingsOf (xs.map concealEntry) = conceal (settingsOf xs) := by
  induction xs with
  | nil => rfl
  | cons x xs ih =>
    cases x with
    | inl e => exact congrArg ((e.1, concealUnder e.1 e.2) :: ·) ih
    | inr issue => exact ih

theorem issuesOf_map_concealEntry (xs : List ((Value × Value) ⊕ Issue)) :
    issuesOf (xs.map concealEntry) = issuesOf xs := by
  induction xs with
  | nil => rfl
  | cons x xs ih =>
    cases x with
    | inl e => exact ih
    | inr issue => exact congrArg (issue :: ·) ih

/-- A secret is converted to itself, whatever it is. -/
theorem convertEntry_conceal {spec : SectionSpec} (hd : Discreet spec) (heading : String) (e : Value × Value) :
    concealEntry <$> convertEntry spec.outgoing heading (e.1, concealUnder e.1 e.2)
      = concealEntry <$> convertEntry spec.outgoing heading e := by
  rcases e with ⟨k, v⟩
  rcases concealUnder_cases k v with h | ⟨hk, s, rfl, h⟩
  · rw [h]
  · obtain ⟨name, rfl, hk⟩ := exists_name_of_sensitive hk
    have htext : ∀ t, concealEntry <$> convertEntry spec.outgoing heading (.text name, .text t)
        = .ok (.inl (.text name, .text mark)) := by
      intro t
      have hmark : concealEntry (.inl (.text name, .text t)) = .inl (.text name, .text mark) :=
        congrArg (fun v => (.inl (.text name, v) : (Value × Value) ⊕ Issue)) (concealUnder_text hk t)
      rw [convertEntry]
      cases hf : spec.outgoing.get? name with
      | none => exact congrArg Except.ok hmark
      | some field =>
        simp only [convert, hd.outgoing_kind hf hk]
        exact congrArg Except.ok hmark
    rw [h, htext, htext]

theorem convertSettings_conceal {spec : SectionSpec} (hd : Discreet spec) (es : Settings) (heading : String) :
    conceal <$> convertSettings spec.outgoing (conceal es) heading
      = conceal <$> convertSettings spec.outgoing es heading := by
  have hrun : ∀ data, conceal <$> convertSettings spec.outgoing data heading =
      (do
        let entries ← data.mapM fun e => concealEntry <$> convertEntry spec.outgoing heading e
        (ConfigError.raiseIfAny .conversion (describe "invalid config value" heading)
          (issuesOf entries)).mapError Fault.config
        return settingsOf entries) := by
    intro data
    rw [← map_mapM]
    simp only [convertSettings, map_bind, bind_map_left, map_pure, settingsOf_map_concealEntry,
      issuesOf_map_concealEntry]
  rw [hrun, hrun, conceal, Settings.mapValues, List.mapM_map]
  simp only [Function.comp_def, convertEntry_conceal hd]

/-! ## Checks of resolved settings -/

theorem outgoingIssue?_conceal {field : Outgoing} (h : field.name ∈ plainNames ∨ field.kind = .text) (heading : String)
    (es : Settings) : outgoingIssue? heading (conceal es) field = outgoingIssue? heading es field := by
  rw [outgoingIssue?, get?_conceal_eq, outgoingIssue?]
  cases es.get? field.name with
  | none => rfl
  | some v =>
    rw [Option.map_some]
    rcases h with h | h
    · rw [concealUnder_of_not_sensitive (isSensitive_of_mem h)]
    · rcases concealUnder_cases (.text field.name) v with hv | ⟨_, s, rfl, hv⟩
      · rw [hv]
      · rw [hv]
        simp only [isKind, h, if_true]

theorem validateOutgoing_conceal {spec : SectionSpec} (hd : Discreet spec) (es : Settings) (heading : String) :
    validateOutgoing spec.outgoing (conceal es) heading = conceal <$> validateOutgoing spec.outgoing es heading := by
  have hissues : outgoingIssues spec.outgoing (conceal es) heading = outgoingIssues spec.outgoing es heading := by
    have hfields := List.filterMap_congr fun f hf => outgoingIssue?_conceal (hd.kind f hf) heading es
    rw [outgoingIssues, unknownKeys_conceal, hfields, outgoingIssues]
    simp only [has_conceal]
  simp only [validateOutgoing, hissues, map_bind, map_pure]

/-- Secrets have no part in whether and how the rest of a section is resolved. -/
theorem resolveSection_conceal {spec : SectionSpec} (hd : Discreet spec) (raw : Settings) (heading : String) :
    conceal <$> Schema.resolveSection spec (conceal raw) heading
      = conceal <$> Schema.resolveSection spec raw heading := by
  have hout : ∀ data, (conceal <$> liftM (validateOutgoing spec.outgoing data heading) : Logged Settings)
      = liftM (validateOutgoing spec.outgoing (conceal data) heading) := by
    intro data
    rw [← Logged.lift_map, validateOutgoing_conceal hd]
  have hconvert : ∀ data, (conceal <$> liftM (convertSettings spec.outgoing (conceal data) heading) : Logged Settings)
      = conceal <$> liftM (convertSettings spec.outgoing data heading) := by
    intro data
    rw [← Logged.lift_map, convertSettings_conceal hd, Logged.lift_map]
  simp only [Schema.resolveSection, validateIncoming_conceal hd, fillDefaults_conceal hd, map_bind, bind_map_left, hout]
  refine congrArg _ (funext fun known => ?_)
  exact bind_congr_of_map (hconvert _) fun data => liftM (validateOutgoing spec.outgoing data heading)

end Redaction

end Stanza
