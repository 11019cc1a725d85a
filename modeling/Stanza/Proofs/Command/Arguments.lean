import Stanza.Command.Run
import Stanza.Proofs.Logged

/-! # Options with their values

Options keep only values that they can take: each value is checked where it is read, so a command line that has been
understood names a format of the log.
-/
namespace Stanza.Command

/-- Every option that has been read has a value that it can take. -/
def Parsed.Admissible (p : Parsed) : Prop := ∀ e ∈ p.flags, e.1.choices = [] ∨ e.2 ∈ e.1.choices

theorem Parsed.Admissible.add {p : Parsed} (hp : p.Admissible) {flag : Flag} {value : String}
    (h : flag.choices = [] ∨ value ∈ flag.choices) :
    Parsed.Admissible { p with flags := p.flags ++ [(flag, value)] } := by
  intro e he
  rcases List.mem_append.mp he with he | he
  · exact hp e he
  · rw [List.mem_singleton.mp he]
    exact h

theorem checkValue_eq_ok {g : Grammar} {flag : Flag} {value : String} (h : checkValue g flag value = .ok ()) :
    flag.choices = [] ∨ value ∈ flag.choices := by
  unfold checkValue at h
  split at h
  · next hc => simpa using hc
  · cases h

theorem choices_of_not_takesValue {flag : Flag} (h : flag.takesValue = false) : flag.choices = [] := by
  cases flag <;> first | rfl | cases h

/-- One word after the other, no option takes a value that it cannot have. -/
theorem Grammar.read_admissible {g : Grammar} {p q : Parsed} {words : List (Word × String)} (h : g.read p words = .ok q)
    (hp : p.Admissible) : q.Admissible := by
  fun_induction Grammar.read g p words with
  | case1 p =>
    cases h
    exact hp
  | case2 p word rest ih => exact ih h hp
  | case3 p w spelling rest _ value _ ih =>
    obtain ⟨_, hvalue, h⟩ := Except.bind_eq_ok_iff.mp h
    exact ih h (hp.add (checkValue_eq_ok hvalue))
  | case4 p w spelling _ _ value later ih =>
    obtain ⟨_, hvalue, h⟩ := Except.bind_eq_ok_iff.mp h
    exact ih h (hp.add (checkValue_eq_ok hvalue))
  | case5 => cases h
  | case6 p w spelling rest hw ih =>
    obtain ⟨_, _, h⟩ := Except.bind_eq_ok_iff.mp h
    exact ih h (hp.add (.inl (choices_of_not_takesValue (Bool.eq_false_iff.mpr hw))))
  | case7 =>
    obtain ⟨_, _, h⟩ := Except.bind_eq_ok_iff.mp h
    cases h
    exact hp
  | case8 p first rest _ _ group later _ _ _ ih =>
    obtain ⟨operand, _, h⟩ := Except.bind_eq_ok_iff.mp h
    exact ih operand h hp
  | case9 p first rest _ _ group later _ _ ih => exact ih h hp

theorem Grammar.parse_admissible {g : Grammar} {words : List String} {p : Parsed} (h : g.parse words = .ok p) :
    p.Admissible := by
  unfold Grammar.parse at h
  obtain ⟨classified, _, h⟩ := Except.bind_eq_ok_iff.mp h
  obtain ⟨q, hq, h⟩ := Except.bind_eq_ok_iff.mp h
  have hqp : q = p := by
    split at h
    · cases h
    · cases h
      rfl
  exact hqp ▸ read_admissible hq (fun e he => absurd he List.not_mem_nil)

theorem Parsed.mem_of_value? {p : Parsed} {flag : Flag} {value : String} (h : p.value? flag = some value) :
    (flag, value) ∈ p.flags := by
  obtain ⟨before, after, heq, _⟩ := List.lookup_eq_some_iff.mp h
  have hm : (flag, value) ∈ p.flags.reverse := heq ▸ List.mem_append_right _ List.mem_cons_self
  exact List.mem_reverse.mp hm

theorem Request.logFormat_ofParsed {task : Task} {p : Parsed} (hp : p.Admissible) :
    (Request.ofParsed task p).logFormat = "text" ∨ (Request.ofParsed task p).logFormat = "json" := by
  cases hv : p.value? .logFormat with
  | none =>
    left
    simp [Request.ofParsed, hv]
  | some value =>
    have hchoice := hp _ (Parsed.mem_of_value? hv)
    simpa [Request.ofParsed, hv, Flag.choices] using hchoice

/-- A request is made of what its command has read. -/
theorem Request.exists_parsed {words : List String} {q : Request} (h : Request.parse words = .ok q) :
    ∃ g rest p task, Grammar.parse g rest = .ok p ∧ q = Request.ofParsed task p := by
  unfold Request.parse at h
  obtain ⟨p, _, h⟩ := Except.bind_eq_ok_iff.mp h
  have hend : ∀ {g : Grammar} {rest : List String} {task : Parsed → Task},
      ((fun r => (r, Request.ofParsed (task r) r)) <$> g.parse rest >>= fun found =>
        if (p.leftOver ++ found.1.leftOver).isEmpty then pure found.2
        else throw (.usage mainGrammar.program
          ("unrecognized arguments: " ++ " ".intercalate (p.leftOver ++ found.1.leftOver)))) = .ok q →
      ∃ g rest p task, Grammar.parse g rest = .ok p ∧ q = Request.ofParsed task p := by
    intro g rest task h
    obtain ⟨found, hfound, h⟩ := Except.bind_eq_ok_iff.mp h
    obtain ⟨r, hr, rfl⟩ := Except.map_eq_ok_iff.mp hfound
    dsimp only at h
    split at h
    · cases h
      exact ⟨g, rest, r, _, hr, rfl⟩
    · cases h
  split at h
  · split at h
    · exact hend h
    · exact hend h
  · cases h

/-- The log of a request that has been understood is set as text or as JSON. -/
theorem Request.logFormat_of_parse {words : List String} {q : Request} (h : Request.parse words = .ok q) :
    q.logFormat = "text" ∨ q.logFormat = "json" := by
  obtain ⟨g, rest, p, task, hp, rfl⟩ := Request.exists_parsed h
  exact logFormat_ofParsed (Grammar.parse_admissible hp)

end Stanza.Command
