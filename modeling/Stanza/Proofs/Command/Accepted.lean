import Stanza.Proofs.Command.Exit
import Stanza.Proofs.Command.Rendered
import Stanza.Proofs.Config.Copy
import Stanza.Proofs.Load.Simple

/-! # Configurations that are accepted but not shown

Nearly every configuration that passes a check can be shown. Those that cannot have an integer that is too long to be
written, hold a date, a time or a value of another type, which has no JSON form, or have a text that the output does not
take.
-/
namespace Stanza

open Value

/-! ## Leaves of copies -/

theorem listedItems_eq_map (items : List Value) : listedItems items = items.map Value.listed := by
  induction items with
  | nil => rfl
  | cons x xs ih => rw [listedItems, ih, List.map_cons]

theorem listedEntries_eq_map (es : Settings) : listedEntries es = es.map fun e => (e.1, e.2.listed) := by
  induction es with
  | nil => rfl
  | cons e es ih => rw [listedEntries, ih, List.map_cons]

namespace Value

variable {P : Value → Prop} {v : Value}

theorem listed_of_isAtom (h : v.isAtom = true) : v.listed = v := by
  cases v with
  | list _ | tuple _ | map _ => cases h
  | _ => rfl

theorem forall_leaves_listed_iff : (∀ x ∈ v.listed.leaves, P x) ↔ ∀ x ∈ v.leaves, P x := by
  induction v using Value.induction with
  | atom v hv => rw [listed_of_isAtom hv]
  | list items ih | tuple items ih =>
    have hitems : (∀ item ∈ items, ∀ x ∈ item.listed.leaves, P x) ↔ ∀ item ∈ items, ∀ x ∈ item.leaves, P x :=
      forall₂_congr ih
    rw [listed, listedItems_eq_map, forall_leaves_list, List.forall_mem_map, hitems]
    exact forall_leaves_list.symm
  | map es ih =>
    rw [listed, listedEntries_eq_map, forall_leaves_map, forall_leaves_map, List.forall_mem_map]
    exact forall₂_congr fun e he => and_congr_right fun _ => (ih e he).2

theorem forall_innerKeys_listed_iff : (∀ k ∈ v.listed.innerKeys, P k) ↔ ∀ k ∈ v.innerKeys, P k := by
  induction v using Value.induction with
  | atom v hv => rw [listed_of_isAtom hv]
  | list items ih | tuple items ih =>
    have hitems : (∀ item ∈ items, ∀ k ∈ item.listed.innerKeys, P k) ↔ ∀ item ∈ items, ∀ k ∈ item.innerKeys, P k :=
      forall₂_congr ih
    rw [listed, listedItems_eq_map, forall_innerKeys_list, List.forall_mem_map, hitems]
    exact forall_innerKeys_list.symm
  | map es ih =>
    rw [listed, listedEntries_eq_map, forall_innerKeys_map, forall_innerKeys_map, List.forall_mem_map]
    exact forall₂_congr fun e he => and_congr_right fun _ => (ih e he).2

end Value

namespace Dump

open Schema Redaction

/-! ## What can be shown of a document -/

/-- With nothing but scalars in its keys, and nothing at its ends that has no plain form. -/
structure Showable (v : Value) : Prop where
  leaves : ∀ x ∈ v.leaves, Presentable x
  keys : ∀ k ∈ v.innerKeys, k.Simple

theorem Showable.of_simple {v : Value} (h : v.Simple) : Showable v :=
  ⟨fun x hx => presentable_of_isScalar (h x hx), forall_innerKeys_of_leaves h⟩

theorem showable_map_iff {es : Settings} : Showable (.map es) ↔ ∀ e ∈ es, e.1.Simple ∧ Showable e.2 := by
  constructor
  · rintro ⟨hleaves, hkeys⟩ e he
    rw [forall_leaves_map] at hleaves
    rw [forall_innerKeys_map] at hkeys
    exact ⟨(hkeys e he).1, (hleaves e he).2, (hkeys e he).2⟩
  · intro h
    refine ⟨forall_leaves_map.mpr fun e he => ?_, forall_innerKeys_map.mpr fun e he => ?_⟩
    · exact ⟨fun x hx => presentable_of_isScalar ((h e he).1 x hx), (h e he).2.leaves⟩
    · exact ⟨(h e he).1, (h e he).2.keys⟩

theorem showable_listed_iff {v : Value} : Showable v.listed ↔ Showable v := by
  constructor
  · rintro ⟨hleaves, hkeys⟩
    exact ⟨forall_leaves_listed_iff.mp hleaves, forall_innerKeys_listed_iff.mp hkeys⟩
  · rintro ⟨hleaves, hkeys⟩
    exact ⟨forall_leaves_listed_iff.mpr hleaves, forall_innerKeys_listed_iff.mpr hkeys⟩

theorem nonneg_of_atLeast {n : Int} (h : atLeast (some 0) n = .ok ()) : 0 ≤ n := by
  by_contra hn
  rw [atLeast, if_pos (by omega)] at h
  cases h

theorem showable_of_settled {field : Outgoing} {v : Value} (h : Schema.Settled field v)
    (hf : field.kind = .minutes ∨ field.kind = .days → field.minimum = some 0) : Showable v := by
  have hatom : ∀ {w : Value}, w.isAtom = true → Presentable w → Showable w := by
    intro w hw hp
    refine ⟨(forall_leaves_atom hw).mpr hp, ?_⟩
    rw [innerKeys_of_isAtom hw]
    exact fun _ hk => absurd hk List.not_mem_nil
  cases h with
  | minutes hk hm hs =>
    rw [hf (.inl hk)] at hm
    have hn := nonneg_of_atLeast hm
    refine hatom rfl ?_
    rw [Presentable, Span.micros_of_ofMinutes hs]
    exact Int.mul_nonneg hn (by decide)
  | days hk hm hs =>
    rw [hf (.inr hk)] at hm
    have hn := nonneg_of_atLeast hm
    refine hatom rfl ?_
    rw [Presentable, Span.micros_of_ofDays hs]
    exact Int.mul_nonneg hn (by decide)
  | period _ hp => exact hatom rfl hp
  | texts _ _ =>
    refine ⟨forall_leaves_list.mpr (List.forall_mem_map.mpr fun s _ => ?_),
      forall_innerKeys_list.mpr (List.forall_mem_map.mpr fun s _ => ?_)⟩
    · exact List.forall_mem_singleton.mpr trivial
    · exact fun _ hk => absurd hk List.not_mem_nil
  | integer _ _ | boolean _ _ | text _ _ | choice _ _ _ => exact hatom rfl trivial

theorem showable_of_sound {spec : SectionSpec} {out : Settings} (hs : Sound spec out) (hf : Forward spec) :
    Showable (.map out) := by
  rw [showable_map_iff]
  intro e he
  obtain ⟨name, field, hname, _, hg, hset⟩ := hs.settled e he
  rw [hname]
  exact ⟨.of_isScalar rfl, showable_of_settled hset (hf field (Spec.get?_eq_some hg).1)⟩

/-! ## What rendering takes -/

variable {c : Config} {host : Host}

/-- What an INI file of a configuration takes: no integer in a resolved section or in what is shown of the others is too
long to be written. -/
structure HasText (c : Config) (host : Host) : Prop where
  resolved : ∀ settings ∈ c.blocks, ∀ e ∈ settings, e.2.Writable
  shown : ∀ es, sections c host = .ok es → ∀ x ∈ (redact (.map (Settings.ofPairs es))).leaves, x.Writable

/-- What JSON of a configuration takes: keys that can be written, and under them neither dates nor times nor values of
other types nor integers that are too long. -/
structure HasJson (c : Config) : Prop where
  keys : ∀ k ∈ (Value.map c.copy).innerKeys, ∀ x ∈ k.leaves, x.Writable
  shown : ∀ shown, plain (.map c.copy) = .ok shown → ∀ x ∈ (redact shown).leaves, Json.Form x

theorem get?_copy_of_mem {b : String × Settings} (hb : b ∈ c.namedBlocks) :
    c.copy.get? b.1 = some (.map (thawEntries b.2)) := by
  simp only [Config.namedBlocks, List.mem_cons, List.not_mem_nil, or_false] at hb
  rw [Config.get?_copy]
  obtain rfl | rfl | rfl | rfl | rfl | rfl := hb <;> rfl

/-- What holds of the ends of the copy holds of the values in the resolved sections. -/
theorem forall_leaves_blocks {P : Value → Prop} (h : ∀ x ∈ (Value.map c.copy).leaves, P x) :
    ∀ settings ∈ c.blocks, ∀ e ∈ settings, ∀ x ∈ e.2.thaw.leaves, P x := by
  have hnamed : ∀ b ∈ c.namedBlocks, ∀ e ∈ b.2, ∀ x ∈ e.2.thaw.leaves, P x := by
    intro b hb
    have hblock := (forall_leaves_map.mp h _ (Settings.mem_of_get? (get?_copy_of_mem hb))).2
    rw [forall_leaves_map, thawEntries_eq_map, List.forall_mem_map] at hblock
    exact fun e he => (hblock e he).2
  simp only [Config.namedBlocks, List.forall_mem_cons] at hnamed
  obtain ⟨-, hdeveloper, hdatabase, hread, hcommands, hpuppetdb, -⟩ := hnamed
  simp only [Config.blocks, List.forall_mem_append, List.forall_mem_cons, List.forall_mem_map]
  refine ⟨fun p hp => ?_, hread, hcommands, hpuppetdb, hdeveloper, fun _ hm => absurd hm List.not_mem_nil⟩
  rw [Config.database] at hdatabase
  cases hprofiles : c.profiles with
  | sole profile =>
    rw [hprofiles] at hp hdatabase
    cases List.mem_singleton.mp hp
    exact hdatabase
  | named results =>
    rw [hprofiles] at hp hdatabase
    obtain ⟨r, hr, rfl⟩ := List.mem_map.mp hp
    have hprofile := hdatabase (.text r.1, .map r.2) (List.mem_map_of_mem hr)
    rw [Value.thaw, forall_leaves_map, thawEntries_eq_map, List.forall_mem_map] at hprofile
    exact fun e he => (hprofile e he).2

theorem HasText.of_leaves (hr : AllResolved c host) (h : ∀ x ∈ (Value.map c.copy).leaves, x.Writable) : HasText c host where
  resolved := by
    intro settings hs e he
    have hthaw := forall_leaves_blocks h settings hs e he
    cases hv : e.2 with
    | int _ | foreign _ =>
      rw [hv] at hthaw
      exact List.forall_mem_singleton.mp hthaw
    | _ => trivial
  shown := by
    intro es hs
    refine forall_leaves_redactValue trivial (forall_leaves_ofPairs ?_)
    refine forall_leaves_sections hr (fun _ => trivial) (fun key settings _ hget => ?_) hs
    exact (forall_leaves_map.mp h _ (Settings.mem_of_get? hget)).2

theorem writable_of_form {v : Value} (h : Json.Form v) : v.Writable := by
  cases v with
  | int n => exact h
  | foreign _ => exact h.elim
  | _ => trivial

theorem HasJson.of_leaves (hs : Showable (.map c.copy)) (h : ∀ x ∈ (Value.map c.copy).leaves, Json.Form x) : HasJson c where
  keys k hk x hx := writable_of_form (forall_innerKeys_of_leaves h k hk x hx)
  shown := by
    intro shown hshown
    have hleaves := fun x hx => (forall_leaves_plain (fun _ => trivial) hs.leaves h hshown x hx).2
    obtain ⟨parts, _, rfl⟩ := Except.map_eq_ok_iff.mp hshown
    exact forall_leaves_redactValue (v := .map (Settings.ofPairs parts)) trivial hleaves

/-! ## Configurations -/

theorem simple_defaultTo {settings : Settings} (h : settings.Simple) (name s : String) :
    (Config.defaultTo settings name (.text s)).Simple := by
  rw [Config.defaultTo]
  split
  · exact h.insert (.of_isScalar rfl) (.of_isScalar rfl)
  · exact h

theorem simple_of_globalsOf {contents : Value} {globals : Settings} (hc : contents.Simple)
    (h : Config.globalsOf contents = .ok globals) : globals.Simple := by
  obtain ⟨settings, hs, product, _, rfl⟩ := Config.globalsOf_eq_ok_iff.mp h
  have hsimple : settings.Simple := by
    cases contents with
    | null =>
      cases hs
      exact fun _ he => absurd he List.not_mem_nil
    | map entries =>
      cases hs
      exact simple_map_iff.mp hc
    | _ => cases hs
  exact simple_defaultTo ((simple_defaultTo hsimple _ _).insert (.of_isScalar rfl) (.of_isScalar rfl)) _ _

theorem simple_get {settings : Settings} (h : settings.Simple) (name : String) : (settings.get name).Simple := by
  rw [Settings.get]
  cases hv : settings.get? name with
  | none => exact .of_isScalar rfl
  | some v => exact (h _ (Settings.mem_of_get? hv)).2

section

variable [Pattern.Compiler] {document : Document}

/-- What resolution gives can be written, whatever the document. -/
theorem resolved_of_ofDocument (h : (Config.ofDocument document host).result = .ok c) : AllResolved c host := by
  obtain ⟨sections, globals, databases, developer, commandProcessing, puppetdb, hi, hr, rfl⟩ :=
    Config.ofDocument_eq_ok_iff.mp h
  have hresolved : ∀ {spec : SectionSpec} {heading : String} {contents : Value} {out : Settings}, Coherent spec →
      (Config.resolveSection spec heading contents).result = .ok out → IsResolved spec (freezeEntries out) := by
    intro spec heading contents out hc ho
    obtain ⟨_, _, ho⟩ := Config.resolveSection_eq_ok_iff.mp ho
    exact ⟨out, sound_of_resolveSection hc ho, rfl⟩
  refine ⟨fun e he => ?_, ⟨databases.readProfile, ?_, rfl⟩, hresolved (coherent_commandProcessing host) hr.commandProcessing,
    hresolved coherent_puppetdb hr.puppetdb, hresolved coherent_developer hr.developer⟩
  · rw [Config.assemble, Section.Resolved.toList_map] at he
    obtain ⟨p, hp, rfl⟩ := List.mem_map.mp he
    exact ⟨p.2, (Database.fixedUp_of_resolve hr.databases hp).sound, rfl⟩
  · obtain ⟨htext, _⟩ := Config.index_eq_self hi hr.databases
    obtain ⟨p, hp, hread⟩ | ⟨_, _, hread⟩ := Database.readProfile_of_resolve htext hr.databases
    · rw [hread]
      exact Database.sound_derived (Database.fixedUp_of_resolve hr.databases hp).sound
    · exact sound_of_resolveSection coherent_database (Database.readProfileOf_eq_ok_iff.mp hread).1

/-- The copy of a configuration comes from the document or from conversion, so that it has a plain form. -/
theorem showable_copy (hsimple : Settings.Simple document) (h : (Config.ofDocument document host).result = .ok c) :
    Showable (.map c.copy) := by
  obtain ⟨hn, hextra, _⟩ := Config.frozen_of_ofDocument h
  have hresolved := resolved_of_ofDocument h
  obtain ⟨sections, globals, databases, developer, commandProcessing, puppetdb, hi, hr, rfl⟩ :=
    Config.ofDocument_eq_ok_iff.mp h
  obtain ⟨_, rfl, _⟩ := Config.index_eq_self hi hr.databases
  have hthaw : ∀ {settings : Settings}, Showable (.map settings) → Showable (.map (thawEntries (freezeEntries settings))) := by
    intro settings hs
    rw [thawEntries_freezeEntries]
    exact showable_listed_iff.mpr hs
  have hblock : ∀ {spec : SectionSpec} {settings : Settings}, Forward spec → IsResolved spec settings →
      Showable (.map (thawEntries settings)) := by
    rintro spec _ hf ⟨out, hs, rfl⟩
    exact hthaw (showable_of_sound hs hf)
  have hdatabase : Showable (.map databases.profiles.toSettings) := by
    have hprofile : ∀ e ∈ databases.profiles.toList, Showable (.map e.2) := fun e he =>
      showable_of_sound (Database.fixedUp_of_resolve hr.databases he).sound forward_writeDatabase
    cases hp : databases.profiles with
    | sole profile => exact hprofile (none, profile) (hp ▸ List.mem_singleton_self _)
    | named results =>
      refine showable_map_iff.mpr (List.forall_mem_map.mpr fun e he => ⟨.of_isScalar rfl, ?_⟩)
      exact hprofile (some e.1, e.2) (hp ▸ List.mem_map_of_mem he)
  rw [Config.copy_eq_copied hn hextra, Config.copied, showable_map_iff]
  refine List.forall_mem_append.mpr ⟨?_, List.forall_mem_map.mpr fun b hb => ⟨.of_isScalar rfl, ?_⟩⟩
  · have hothers : Settings.Simple (sections.filter Config.isExtra) := fun e he => hsimple e (List.mem_of_mem_filter he)
    exact showable_map_iff.mp (showable_listed_iff.mpr (.of_simple (simple_map_iff.mpr hothers)))
  · simp only [Config.namedBlocks, List.mem_cons, List.not_mem_nil, or_false] at hb
    obtain rfl | rfl | rfl | rfl | rfl | rfl := hb
    · exact hthaw (.of_simple (simple_map_iff.mpr (simple_of_globalsOf (simple_get hsimple _) hr.globals)))
    · exact hblock forward_developer hresolved.developer
    · rw [Config.database, Config.assemble, freezeEntries_toSettings]
      exact hthaw hdatabase
    · exact hblock forward_database hresolved.readProfile
    · exact hblock (forward_commandProcessing host) hresolved.commandProcessing
    · exact hblock forward_puppetdb hresolved.puppetdb

/-- What is written out as it stands comes from the document. -/
theorem simple_of_isKept (hsimple : Settings.Simple document) (h : (Config.ofDocument document host).result = .ok c)
    {key : String} {settings : Settings} (hk : IsKept c key) (hget : c.copy.get? key = some (.map settings)) :
    (Value.map settings).Simple := by
  obtain ⟨_, hextra, _⟩ := Config.frozen_of_ofDocument h
  have hlisted : ∀ {v : Value}, v.Simple → v.listed = .map settings → (Value.map settings).Simple := by
    intro v hv heq
    rw [← heq]
    exact forall_leaves_listed_iff.mpr hv
  obtain rfl | hk := hk
  · obtain ⟨sections, globals, databases, _, _, _, hi, hr, rfl⟩ := Config.ofDocument_eq_ok_iff.mp h
    obtain ⟨_, rfl, _⟩ := Config.index_eq_self hi hr.databases
    refine hlisted (simple_map_iff.mpr (simple_of_globalsOf (simple_get hsimple _) hr.globals)) ?_
    rw [Config.get?_copy_global] at hget
    rw [← Option.some.inj hget, ← thaw_freeze]
    rfl
  · rw [hextra, keys_freezeEntries] at hk
    obtain ⟨name, hname, _, hother⟩ := Config.mem_keys_filter_isExtra.mp hk
    cases hname
    rw [Config.get?_copy_of_not_mem c hother.not_mem_blockNames, hextra, get?_freezeEntries, Option.map_map] at hget
    obtain ⟨v, hv, heq⟩ := Option.map_eq_some_iff.mp hget
    refine hlisted (hsimple _ (List.mem_of_mem_filter (Settings.mem_of_get? hv))).2 ?_
    rw [← thaw_freeze]
    exact heq

theorem text_succeeds_iff (hsimple : Settings.Simple document) (h : (Config.ofDocument document host).result = .ok c) :
    (text c host).Succeeds ↔ HasText c host := by
  have hr := resolved_of_ofDocument h
  have hscalars : ∀ es, sections c host = .ok es → ∀ x ∈ (Value.map es).leaves, x.isScalar = true := fun es hs =>
    forall_leaves_sections hr (fun _ => rfl) (fun _ _ hk hget => simple_of_isKept hsimple h hk hget) hs
  rw [succeeds_text_iff (fun es hs => headed_sections hr hs) hscalars, succeeds_sections_iff hr]
  exact ⟨fun ⟨hresolved, hshown⟩ => ⟨hresolved, hshown⟩, fun ⟨hresolved, hshown⟩ => ⟨hresolved, hshown⟩⟩

theorem json_succeeds_iff (hsimple : Settings.Simple document) (h : (Config.ofDocument document host).result = .ok c) :
    (json c).Succeeds ↔ HasJson c := by
  have hs := showable_copy hsimple h
  have hkeys : (∀ k ∈ (Value.map c.copy).innerKeys, k.display.Succeeds) ↔
      ∀ k ∈ (Value.map c.copy).innerKeys, ∀ x ∈ k.leaves, x.Writable :=
    forall₂_congr fun k hk => succeeds_display_iff (hs.keys k hk)
  rw [succeeds_json_iff hs.leaves, hkeys]
  exact ⟨fun ⟨hkeys, hshown⟩ => ⟨hkeys, hshown⟩, fun ⟨hkeys, hshown⟩ => ⟨hkeys, hshown⟩⟩

end

end Dump

/-! ## Runs -/

namespace Command

open Dump

/-- With a configuration, a request succeeds if its task has an output that can be printed. -/
theorem exitCode_of_config {s : Surroundings} {q : Request} {o : Outcome} {c : Config}
    (he : o.report.exitRequired = false) (hc : o.config? = some c) :
    (q.ending s (.ok o)).exitCode = .success ↔ (q.task.output s c o.report).Succeeds ∧
      ∀ text, q.task.output s c o.report = .ok text → text.toList.all s.encodes = true := by
  rw [ending_of_config he hc]
  cases q.task.output s c o.report with
  | ok text =>
    refine exitCode_print_iff.trans ⟨fun h => ⟨Except.succeeds_ok text, ?_⟩, fun h => h.2 text rfl⟩
    rintro _ ⟨⟩
    exact h
  | error e => exact iff_of_false (ofChain_ne_success e.chain) fun h => Except.not_succeeds_error e h.1

section

variable [Yaml.Loader] [Pattern.Compiler] {s : Surroundings} {q q' : Request} {words words' : List String}

theorem resolve_congr (h : q'.paths = q.paths) : q'.resolve s = q.resolve s := by
  unfold Request.resolve
  rw [h]

/-- A request that is carried out has a known level for its log. -/
theorem exists_level_of_success (hq : Request.parse words = .ok q) (h : (run s words).ending.exitCode = .success) :
    ∃ level, Log.Level.ofValue (.text q.logLevel) = .ok level := by
  let setup : Log.Setup := { level := .text q.logLevel, format := .text q.logFormat }
  have hsetup := Log.Registry.setUp_eq { files := s.files } setup
  cases hread : setup.read with
  | error e =>
    rw [hread] at hsetup
    rw [run, hq] at h
    dsimp only at h
    rw [Request.run, hsetup] at h
    exact absurd h (ofChain_ne_success e.chain)
  | ok asked => exact ⟨asked.1, (Log.Setup.read_eq_ok_iff.mp hread).1⟩

/-- A check that succeeds, of the directory for data as well or not, has a configuration of its files. -/
theorem exists_config_of_success (h : (q.ending s (q.resolve s).result).exitCode = .success) :
    ∃ document o c, Load.files s.files q.paths = .ok document ∧ (q.resolve s).result = .ok o ∧
      o.report.exitRequired = false ∧ o.config? = some c ∧ (Config.ofDocument document s.host).result = .ok c := by
  cases hr : (q.resolve s).result with
  | error fault =>
    rw [hr] at h
    exact absurd h (ofChain_ne_success fault.chain)
  | ok o =>
    rw [hr] at h
    obtain ⟨document, hd, ho⟩ := resolve_eq_ok_iff.mp hr
    obtain ⟨_, _, ⟨-, he, -⟩ | ⟨-, he, c, hc, hconfig⟩⟩ := Outcome.ofDocument_cases ho
    · simp only [Request.ending, he, if_true] at h
      cases h
    · exact ⟨document, o, c, hd, rfl, he, hc, hconfig⟩

/-- Of files on which a request such as a check succeeds, an INI dump is printed unless an integer in it is too long to be
written, and a JSON dump unless there is such an integer, a date, a time or a value of another type in it, as long as the
output takes what is printed. All others can be dumped both ways. -/
theorem dump_exitCode_iff [Yaml.Loader.Lawful] {json : Bool} (hq : Request.parse words = .ok q)
    (hcheck : (run s words).ending.status = .int 0) (hq' : Request.parse words' = .ok q') (ht' : q'.task = .dump json)
    (hpaths : q'.paths = q.paths) (hl' : ∃ level, Log.Level.ofValue (.text q'.logLevel) = .ok level) :
    ∃ document c, Load.files s.files q.paths = .ok document ∧ (Config.ofDocument document s.host).result = .ok c ∧
      (json = false → ((run s words').ending.status = .int 0 ↔
          HasText c s.host ∧ ∀ text, Dump.text c s.host = .ok text → text.toList.all s.encodes = true) ∧
        ((∀ ch, s.encodes ch = true) → (∀ x ∈ (Value.map c.copy).leaves, x.Writable) →
          (run s words').ending.status = .int 0)) ∧
      (json = true → ((run s words').ending.status = .int 0 ↔
          HasJson c ∧ ∀ text, Dump.json c = .ok text → text.toList.all s.encodes = true) ∧
        ((∀ ch, s.encodes ch = true) → (∀ x ∈ (Value.map c.copy).leaves, Json.Form x) →
          (run s words').ending.status = .int 0)) := by
  have hsuccess : (run s words).ending.exitCode = .success := status_eq_iff.mp hcheck
  rw [ending_run hq (exists_level_of_success hq hsuccess)] at hsuccess
  obtain ⟨document, o, c, hd, hr, he, hc, hconfig⟩ := exists_config_of_success hsuccess
  have hsimple := Load.simple_of_files hd
  have hexit : (run s words').ending.status = .int 0 ↔ (q'.task.output s c o.report).Succeeds ∧
      ∀ text, q'.task.output s c o.report = .ok text → text.toList.all s.encodes = true := by
    rw [ending_run hq' hl', resolve_congr hpaths, hr, ← exitCode_of_config he hc]
    exact status_eq_iff (x := .success)
  have hall : (∀ ch, s.encodes ch = true) → ∀ text : String, text.toList.all s.encodes = true :=
    fun h text => List.all_eq_true.mpr fun ch _ => h ch
  rw [hexit, ht']
  refine ⟨document, c, hd, hconfig, ?_, ?_⟩
  · rintro rfl
    have htext : (Task.output (.dump false) s c o.report).Succeeds ↔ HasText c s.host := text_succeeds_iff hsimple hconfig
    rw [htext]
    exact ⟨Iff.rfl, fun henc h => ⟨.of_leaves (resolved_of_ofDocument hconfig) h, fun text _ => hall henc text⟩⟩
  · rintro rfl
    have hjson : (Task.output (.dump true) s c o.report).Succeeds ↔ HasJson c := json_succeeds_iff hsimple hconfig
    rw [hjson]
    exact ⟨Iff.rfl, fun henc h => ⟨.of_leaves (showable_copy hsimple hconfig) h, fun text _ => hall henc text⟩⟩

end

/-! ## A date in a section that nothing resolves -/

/-- The bytes of `datedText`. -/
def datedBytes : List UInt8 := [100, 97, 116, 97, 98, 97, 115, 101, 46, 115, 117, 98, 110, 97, 109, 101, 61, 34, 47, 47, 97,
  47, 98, 34, 10, 111, 46, 100, 61, 50, 48, 50, 52, 45, 48, 49, 45, 48, 49]

def datedText : String := "database.subname=\"//a/b\"\no.d=2024-01-01"

def dated : Surroundings where
  files := { home := [], files := [(["a.toml".toList], datedBytes)] }
  host := ⟨4, 205000⟩
  now := .int 0

def datedDocument : Document := [(.text "database", .map [(.text "subname", .text "//a/b")]),
  (.text "o", .map [(.text "d", .moment (.date ⟨2024, 1, 1⟩))])]

section

open Toml

theorem assignment_subname : Reader.assignment {} "database.subname=\"//a/b\"\no.d=2024-01-01".toList =
    .ok ({ entries := datedDocument.take 1, pending := [⟨["database"], .named, false⟩] }, "\no.d=2024-01-01".toList) := by
  have hname : key "subname=\"//a/b\"\no.d=2024-01-01".toList = .ok (["subname"], "=\"//a/b\"\no.d=2024-01-01".toList) := by
    rw [key]
    rfl
  have hkey : key "database.subname=\"//a/b\"\no.d=2024-01-01".toList =
      .ok (["database", "subname"], "=\"//a/b\"\no.d=2024-01-01".toList) :=
    key_of_dot "subname=\"//a/b\"\no.d=2024-01-01".toList rfl (by decide) hname
  have hvalue : value "\"//a/b\"\no.d=2024-01-01".toList = .ok (.text "//a/b", "\no.d=2024-01-01".toList) := by
    have hbody := basicText_plain "//a/b".toList [] "\no.d=2024-01-01".toList rfl
    rw [value.eq_def]
    change (do let p ← basicText false [] ("//a/b".toList ++ '"' :: "\no.d=2024-01-01".toList)
               return (Value.text (String.ofList p.1), p.2)) = _
    rw [hbody]
    rfl
  rw [Reader.assignment, hkey]
  change (do let p ← value "\"//a/b\"\no.d=2024-01-01".toList; _) = _
  rw [hvalue]
  rfl

theorem assignment_dated : Reader.assignment
      { entries := datedDocument.take 1, pending := [⟨["database"], .named, false⟩] } "o.d=2024-01-01".toList =
    .ok ({ entries := datedDocument, pending := [⟨["o"], .named, false⟩, ⟨["database"], .named, false⟩] }, []) := by
  have hname : key "d=2024-01-01".toList = .ok (["d"], "=2024-01-01".toList) := by
    rw [key]
    rfl
  have hkey : key "o.d=2024-01-01".toList = .ok (["o", "d"], "=2024-01-01".toList) :=
    key_of_dot "d=2024-01-01".toList rfl (by decide) hname
  have hvalue : value "2024-01-01".toList = .ok (.moment (.date ⟨2024, 1, 1⟩), []) := by
    rw [value.eq_def]
    rfl
  rw [Reader.assignment, hkey]
  change (do let p ← value "2024-01-01".toList; _) = _
  rw [hvalue]
  rfl

theorem read_dated : Toml.read datedText.toList = .ok datedDocument := by
  have hrest : Reader.run { entries := datedDocument.take 1, pending := [⟨["database"], .named, false⟩] }
      "o.d=2024-01-01".toList =
      .ok { entries := datedDocument, pending := [⟨["o"], .named, false⟩, ⟨["database"], .named, false⟩] } := by
    rw [Reader.run]
    change (do let p ← Reader.assignment _ "o.d=2024-01-01".toList; _) = _
    rw [assignment_dated]
    rfl
  rw [Toml.read, Reader.run]
  change Reader.entries <$> (do let p ← Reader.assignment {} "database.subname=\"//a/b\"\no.d=2024-01-01".toList; _) = _
  rw [assignment_subname]
  change Reader.entries <$> Reader.run _ "o.d=2024-01-01".toList = _
  rw [hrest]
  rfl

end

theorem files_dated : Load.files dated.files ["/a.toml"] = .ok datedDocument := by
  have hfile : Load.file dated.files (.ofString "/a.toml") = .ok datedDocument := by
    have hhome : dated.files.expandHome? (.ofString "/a.toml") = some (.ofString "/a.toml") := by rfl
    have hfind : dated.files.find? (.ofString "/a.toml") = some (.file datedBytes) := by rfl
    have hformat : Load.format? (.ofString "/a.toml") = some .toml := by rfl
    have hread : Load.tomlSettings (.ofString "/a.toml") datedBytes = .ok datedDocument := by
      have hdecode : Text.decodeUtf8 datedBytes = .ok datedText.toList := by rfl
      simp only [Load.tomlSettings, hdecode, read_dated]
      rfl
    have hflatten : Load.flatten (.ofString "/a.toml") datedDocument = .ok datedDocument := by rfl
    rw [Load.file_eq_document hhome hfind hformat, Load.document, hread]
    exact hflatten
  have hpaths : Load.filesAt dated.files ["/a.toml"] = .ok [.ofString "/a.toml"] := by rfl
  rw [Load.files_of_filesAt hpaths]
  simp only [List.foldlM_cons, hfile]
  rfl

/-- The file has a configuration. It has a date in what its JSON would show, and no long integer. -/
theorem exists_config_dated : ∃ o c, (Outcome.ofDocument datedDocument dated.host).result = .ok o ∧
    o.report.exitRequired = false ∧ o.config? = some c ∧ (Config.ofDocument datedDocument dated.host).result = .ok c ∧
    (∀ x ∈ (Value.map c.copy).leaves, x.Writable) ∧ ¬ HasJson c := by
  have hok : (Outcome.ofDocument datedDocument dated.host).result.succeedsWith (!·.report.exitRequired) = true := by
    decide +kernel
  have hshown : (Config.ofDocument datedDocument dated.host).result.succeedsWith (fun c =>
      ((Value.map c.copy).leaves.all fun x => decide x.Writable) && (plain (.map c.copy)).succeedsWith fun shown =>
        (Redaction.redact shown).leaves.any fun x => !decide (Json.Form x)) = true := by
    decide +kernel
  obtain ⟨o, ho, he⟩ := Except.succeedsWith_iff.mp hok
  obtain ⟨_, _, ⟨-, hexit, -⟩ | ⟨-, hexit, c, hc, hconfig⟩⟩ := Outcome.ofDocument_cases ho
  · rw [hexit] at he
    cases he
  · obtain ⟨_, hd, hp⟩ := Except.succeedsWith_iff.mp hshown
    cases hd.symm.trans hconfig
    obtain ⟨hwritable, hp⟩ := Bool.and_eq_true_iff.mp hp
    obtain ⟨shown, hplain, hp⟩ := Except.succeedsWith_iff.mp hp
    obtain ⟨x, hx, hform⟩ := List.any_eq_true.mp hp
    refine ⟨o, c, ho, hexit, hc, hconfig, fun x hx => of_decide_eq_true (List.all_eq_true.mp hwritable x hx), fun hjson => ?_⟩
    rw [Bool.not_eq_true', decide_eq_false_iff_not] at hform
    exact hform (hjson.shown shown hplain x hx)

theorem check_dated : (run dated ["check", "/a.toml"]).ending.status = .int 0 := by
  obtain ⟨o, c, ho, he, hc, hconfig, _⟩ := exists_config_dated
  let q : Request := ⟨.check false, ["/a.toml"], "WARNING", "text"⟩
  have hq : Request.parse ["check", "/a.toml"] = .ok q := by with_unfolding_all rfl
  have hr : (q.resolve dated).result = .ok o := resolve_eq_ok_iff.mpr ⟨_, files_dated, ho⟩
  have houtput : (q.task.output dated c o.report).Succeeds := exists_checkText hconfig o.report
  rw [ending_run hq exists_level_warning, hr]
  refine (status_eq_iff (x := .success)).mpr ((exitCode_of_config he hc).mpr ⟨houtput, fun text _ => ?_⟩)
  exact List.all_eq_true.mpr fun _ _ => rfl

/-- The date does not keep the file from being dumped as INI. -/
theorem dump_text_dated : (run dated ["dump", "/a.toml"]).ending.status = .int 0 := by
  obtain ⟨_, _, _, _, _, hdated, hwritable, _⟩ := exists_config_dated
  have hcheck : Request.parse ["check", "/a.toml"] = .ok ⟨.check false, ["/a.toml"], "WARNING", "text"⟩ := by with_unfolding_all rfl
  have hdump : Request.parse ["dump", "/a.toml"] = .ok ⟨.dump false, ["/a.toml"], "WARNING", "text"⟩ := by with_unfolding_all rfl
  obtain ⟨document, c, hd, hconfig, htext, -⟩ := dump_exitCode_iff hcheck check_dated hdump rfl rfl exists_level_warning
  cases hd.symm.trans files_dated
  cases hconfig.symm.trans hdated
  exact (htext rfl).2 (fun _ => rfl) hwritable

/-- As JSON it is not dumped. -/
theorem dump_json_dated : ∃ s : Surroundings, (run s ["check", "/a.toml"]).ending.status = .int 0 ∧
    (run s ["dump", "--json", "/a.toml"]).ending.status ≠ .int 0 := by
  refine ⟨dated, check_dated, fun hdump => ?_⟩
  obtain ⟨o, c, ho, he, hc, hconfig, _, hjson⟩ := exists_config_dated
  let q : Request := ⟨.dump true, ["/a.toml"], "WARNING", "text"⟩
  have hq : Request.parse ["dump", "--json", "/a.toml"] = .ok q := by with_unfolding_all rfl
  have hr : (q.resolve dated).result = .ok o := resolve_eq_ok_iff.mpr ⟨_, files_dated, ho⟩
  rw [ending_run hq exists_level_warning, hr] at hdump
  have houtput : (json c).Succeeds := ((exitCode_of_config he hc).mp ((status_eq_iff (x := .success)).mp hdump)).1
  exact hjson ((json_succeeds_iff (Load.simple_of_files files_dated) hconfig).mp houtput)

end Command

end Stanza
