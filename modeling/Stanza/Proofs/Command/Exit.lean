import Stanza.Proofs.Command.Arguments
import Stanza.Proofs.Config.Failure
import Stanza.Proofs.Load.Failure
import Stanza.Proofs.Log.Registry

/-! # How a check ends

The stages of a check can all fail on the same files, and the first that does decides the exit code: loading, the index
of sections, the look for retired settings, and resolution. After resolution nothing fails but the output.
-/
namespace Stanza

namespace Retirement

/-- The global settings have the one that the service must not start with. -/
def Fatal (document : Document) : Prop :=
  ∃ entries, (.text "global", .map entries) ∈ document ∧ .text "url-prefix" ∈ Settings.keys entries

theorem sets_iff {contents : Value} {key : String} :
    sets contents key = true ↔ ∃ entries, contents = .map entries ∧ .text key ∈ Settings.keys entries := by
  cases contents with
  | map entries => simp [sets, Settings.has_iff_mem_keys]
  | _ => simp [sets]

theorem sets_index_iff {document : Document} {sections : Settings} (h : Config.index document = .ok sections) :
    sets (sections.get "global") urlPrefix.key = true ↔ Fatal document := by
  have hglobal : Database.isHeading "global" = false := by decide
  rw [sets_iff]
  refine exists_congr fun entries => and_congr_left fun _ => ?_
  rw [← Config.mem_index_iff h hglobal]
  constructor
  · intro hget
    have hsome : sections.get? "global" = some (sections.get "global") := Settings.get?_of_get (by rw [hget]; rfl)
    rw [hsome, hget]
  · exact Settings.get_of_get?

end Retirement

namespace Outcome

variable [Pattern.Compiler] {document : Document} {host : Host} {o : Outcome}

/-- Once the sections are indexed there is a report, and a configuration unless the report stops the service. -/
theorem ofDocument_cases (h : (ofDocument document host).result = .ok o) : ∃ sections,
    Config.index document = .ok sections ∧
      ((Retirement.Fatal document ∧ o.report.exitRequired = true ∧ o.config? = none) ∨
        (¬ Retirement.Fatal document ∧ o.report.exitRequired = false ∧
          ∃ c, o.config? = some c ∧ (Config.ofDocument document host).result = .ok c)) := by
  unfold ofDocument at h
  obtain ⟨sections, hi, h⟩ := Logged.result_bind_eq_ok_iff.mp h
  rw [Logged.result_lift, Except.mapError_eq_ok_iff] at hi
  refine ⟨sections, hi, ?_⟩
  rw [← Retirement.sets_index_iff hi]
  obtain ⟨report, hr, h⟩ := Logged.result_bind_eq_ok_iff.mp h
  rw [result_check] at hr
  cases hr
  cases hs : Retirement.sets (sections.get "global") Retirement.urlPrefix.key with
  | true =>
    rw [hs] at h
    cases h
    exact .inl ⟨rfl, rfl, rfl⟩
  | false =>
    rw [hs] at h
    obtain ⟨c, hc, h⟩ := Logged.result_bind_eq_ok_iff.mp h
    cases h
    exact .inr ⟨Bool.false_ne_true, rfl, c, rfl, hc⟩

end Outcome

namespace Command

/-! ## Chains of failures -/

section

variable {α : Type} {P Q : α → Prop} {x : α} {xs : List α}

theorem exists_split_cons_iff : (∃ before y after, x :: xs = before ++ y :: after ∧ P y ∧ ∀ z ∈ before, Q z) ↔
    P x ∨ Q x ∧ ∃ before y after, xs = before ++ y :: after ∧ P y ∧ ∀ z ∈ before, Q z := by
  constructor
  · rintro ⟨before, y, after, h, hy, hbefore⟩
    cases before with
    | nil =>
      cases h
      exact .inl hy
    | cons z before =>
      cases h
      obtain ⟨hz, hbefore⟩ := List.forall_mem_cons.mp hbefore
      exact .inr ⟨hz, before, y, after, rfl, hy, hbefore⟩
  · rintro (hx | ⟨hx, before, y, after, rfl, hy, hbefore⟩)
    · exact ⟨[], x, xs, rfl, hx, List.forall_mem_nil _⟩
    · exact ⟨x :: before, y, after, rfl, hy, List.forall_mem_cons.mpr ⟨hx, hbefore⟩⟩

end

/-- A failure is one of the configuration if the links from it lead to such a one. -/
theorem ofChain_eq_misconfigured_iff {chain : List (FailureKind × Link)} : ExitCode.ofChain chain = .misconfigured ↔
    ∃ before p after, chain = before ++ p :: after ∧ p.1.isConfiguration = true ∧ ∀ q ∈ before, q.2.isFollowed = true := by
  induction chain with
  | nil =>
    refine iff_of_false nofun ?_
    rintro ⟨before, p, after, h, -⟩
    simp at h
  | cons p rest ih =>
    rw [exists_split_cons_iff, ← ih, ExitCode.ofChain]
    cases p.1.isConfiguration <;> cases p.2.isFollowed <;> simp

theorem ofChain_cases (chain : List (FailureKind × Link)) :
    ExitCode.ofChain chain = .misconfigured ∨ ExitCode.ofChain chain = .internal := by
  induction chain with
  | nil => exact .inr rfl
  | cons p rest ih =>
    rw [ExitCode.ofChain]
    split
    · exact .inl rfl
    split
    · exact ih
    · exact .inr rfl

theorem ofChain_ne_success (chain : List (FailureKind × Link)) : ExitCode.ofChain chain ≠ .success := by
  obtain h | h := ofChain_cases chain <;> simp [h]

def Ending.exitCode : Ending → ExitCode
  | .done _ | .stopped (.help _) => .success
  | .retired _ => .retired
  | .stopped (.usage ..) => .misconfigured
  | .failed e => .ofChain e.chain

theorem status_eq (e : Ending) : e.status = .int e.exitCode.number := by
  cases e with
  | stopped stop => cases stop <;> rfl
  | _ => rfl

theorem number_eq_iff {x y : ExitCode} : x.number = y.number ↔ x = y := by
  cases x <;> cases y <;> decide

theorem status_eq_iff {e : Ending} {x : ExitCode} : e.status = .int x.number ↔ e.exitCode = x := by
  rw [status_eq, Value.int.injEq, Int.ofNat_inj, number_eq_iff]

/-! ## After resolution -/

/-- A product has a name, so what is said of a configuration that is fine is never refused. -/
theorem exists_checkText [Pattern.Compiler] {document : Document} {host : Host} {c : Config}
    (h : (Config.ofDocument document host).result = .ok c) (r : Retirement.Report) : ∃ text, checkText c r = .ok text := by
  obtain ⟨sections, globals, databases, developer, commandProcessing, puppetdb, _, hr, rfl⟩ :=
    Config.ofDocument_eq_ok_iff.mp h
  obtain ⟨product, _, hget⟩ := (Config.complete_of_globalsOf hr.globals).product
  have hfrozen : Settings.get (freezeEntries globals) "product-name" = .text product := by
    refine Settings.get_of_get? ?_
    rw [get?_freezeEntries, hget]
    rfl
  have hdisplay : digits (Value.text product).display = .ok product := rfl
  unfold checkText
  simp only [Config.assemble, hfrozen, hdisplay]
  exact ⟨_, rfl⟩

/-- With a configuration, a request ends as its task does. -/
theorem ending_of_config {s : Surroundings} {q : Request} {o : Outcome} {c : Config}
    (he : o.report.exitRequired = false) (hc : o.config? = some c) :
    q.ending s (.ok o) = match q.task.output s c o.report with
      | .ok text => s.print text
      | .error e => .failed e := by
  have hrequire : (do q.task.output s (← o.require.mapError Fault.config) o.report : Except Fault String)
      = q.task.output s c o.report := by
    rw [Outcome.require, hc]
    rfl
  cases houtput : q.task.output s c o.report <;>
    simp only [Request.ending, he, Bool.false_eq_true, if_false, hrequire, houtput]

theorem exitCode_print_iff {s : Surroundings} {text : String} :
    (s.print text).exitCode = .success ↔ text.toList.all s.encodes = true := by
  unfold Surroundings.print
  split
  · next h => exact iff_of_true rfl h
  · next h => exact iff_of_false nofun h

/-! ## Requests -/

section

variable [Yaml.Loader] [Pattern.Compiler] {s : Surroundings} {q : Request}

/-- A request with a known level of the log is carried out. -/
theorem ending_run {words : List String} (hq : Request.parse words = .ok q)
    (hl : ∃ level, Log.Level.ofValue (.text q.logLevel) = .ok level) :
    (run s words).ending = q.ending s (q.resolve s).result := by
  obtain ⟨level, hl⟩ := hl
  have hformat : ∃ format, Log.Format.ofValue (.text q.logFormat) = .ok format := by
    rcases Request.logFormat_of_parse hq with h | h
    · exact ⟨.text, by rw [h]; rfl⟩
    · exact ⟨.json, by rw [h]; rfl⟩
  obtain ⟨format, hf⟩ := hformat
  let setup : Log.Setup := { level := .text q.logLevel, format := .text q.logFormat }
  have hname : Log.Registry.loggerName setup.logger = .ok "pdbconf" := by rfl
  have hread : setup.read = .ok (level, "pdbconf", format) := Log.Setup.read_eq_ok_iff.mpr ⟨hl, hname, hf⟩
  have hsetup := Log.Registry.setUp_eq { files := s.files } setup
  rw [hread] at hsetup
  rw [run, hq]
  dsimp only
  rw [Request.run, hsetup]

theorem resolve_eq_ok_iff {o : Outcome} : (q.resolve s).result = .ok o ↔
    ∃ document, Load.files s.files q.paths = .ok document ∧ (Outcome.ofDocument document s.host).result = .ok o :=
  Logged.result_bind_eq_ok_iff

theorem resolve_eq_error_iff {fault : Fault} : (q.resolve s).result = .error fault ↔
    Load.files s.files q.paths = .error fault ∨
    ∃ document, Load.files s.files q.paths = .ok document ∧ (Outcome.ofDocument document s.host).result = .error fault :=
  Logged.result_bind_eq_error_iff

end

theorem exists_level_warning : ∃ level, Log.Level.ofValue (.text "WARNING") = .ok level := ⟨.number 30, by with_unfolding_all rfl⟩

end Command

end Stanza
