import Stanza.Proofs.Logged

/-! # Faults of computations in steps

A computation fails with the fault of the first step that fails. The steps before it gave results, and those after
it are not run.
-/
namespace Except

variable {ε ε' α β : Type}

theorem bind_eq_error_iff {x : Except ε α} {f : α → Except ε β} {e : ε} :
    (x >>= f) = .error e ↔ x = .error e ∨ ∃ a, x = .ok a ∧ f a = .error e := by
  cases x with
  | error d => simp [bind, Except.bind]
  | ok a => simp [bind, Except.bind]

theorem map_eq_error_iff {x : Except ε α} {f : α → β} {e : ε} : f <$> x = .error e ↔ x = .error e := by
  cases x with
  | error d => simp [Functor.map, Except.map]
  | ok a => simp [Functor.map, Except.map]

theorem mapError_eq_error_iff {x : Except ε α} {f : ε → ε'} {e : ε'} :
    x.mapError f = .error e ↔ ∃ d, x = .error d ∧ f d = e := by
  cases x with
  | error d => simp [Except.mapError]
  | ok a => simp [Except.mapError]

@[simp] theorem pure_ne_error (a : α) (e : ε) : (pure a : Except ε α) ≠ .error e := nofun

/-- A list is mapped up to the first item that fails. -/
theorem mapM_eq_error_iff {f : α → Except ε β} {xs : List α} {e : ε} :
    xs.mapM f = .error e ↔ ∃ before x after, xs = before ++ x :: after ∧ (∀ y ∈ before, ∃ b, f y = .ok b) ∧
      f x = .error e := by
  induction xs with
  | nil => simp [pure, Except.pure]
  | cons x xs ih =>
    rw [List.mapM_cons, bind_eq_error_iff]
    constructor
    · rintro (hx | ⟨b, hb, h⟩)
      · exact ⟨[], x, xs, rfl, by simp, hx⟩
      · obtain h | ⟨_, _, h⟩ := bind_eq_error_iff.mp h
        · obtain ⟨before, y, after, rfl, hbefore, hy⟩ := ih.mp h
          exact ⟨x :: before, y, after, rfl, List.forall_mem_cons.mpr ⟨⟨b, hb⟩, hbefore⟩, hy⟩
        · cases h
    · rintro ⟨before, y, after, hxs, hbefore, hy⟩
      cases before with
      | nil =>
        cases hxs
        exact .inl hy
      | cons z before =>
        cases hxs
        obtain ⟨⟨b, hb⟩, hbefore⟩ := List.forall_mem_cons.mp hbefore
        exact .inr ⟨b, hb, bind_eq_error_iff.mpr (.inl (ih.mpr ⟨before, y, after, rfl, hbefore, hy⟩))⟩

def failsWith (p : ε → Bool) : Except ε α → Bool
  | .ok _ => false
  | .error e => p e

theorem failsWith_iff {x : Except ε α} {p : ε → Bool} : x.failsWith p = true ↔ ∃ e, x = .error e ∧ p e = true := by
  cases x with
  | error d => simp [failsWith]
  | ok a => simp [failsWith]

def succeedsWith (p : α → Bool) : Except ε α → Bool
  | .ok a => p a
  | .error _ => false

theorem succeedsWith_iff {x : Except ε α} {p : α → Bool} : x.succeedsWith p = true ↔ ∃ a, x = .ok a ∧ p a = true := by
  cases x with
  | error d => simp [succeedsWith]
  | ok a => simp [succeedsWith]

theorem exists_of_foldlM_eq_error {f : β → α → Except ε β} {xs : List α} {b : β} {e : ε}
    (h : xs.foldlM f b = .error e) : ∃ x ∈ xs, ∃ c, f c x = .error e := by
  induction xs generalizing b with
  | nil => cases h
  | cons x xs ih =>
    rw [List.foldlM_cons] at h
    obtain h | ⟨c, _, h⟩ := bind_eq_error_iff.mp h
    · exact ⟨x, List.mem_cons_self, b, h⟩
    · obtain ⟨y, hy, hf⟩ := ih h
      exact ⟨y, List.mem_cons_of_mem _ hy, hf⟩

/-! ## Results and errors of some kind -/

def Ends (post : α → Prop) (cause : ε → Prop) : Except ε α → Prop
  | .ok a => post a
  | .error e => cause e

section

variable {x : Except ε α} {post wider : α → Prop} {cause broader : ε → Prop}

theorem Ends.ok (h : x.Ends post cause) {a : α} (hx : x = .ok a) : post a := by
  cases hx
  exact h

theorem Ends.error (h : x.Ends post cause) {e : ε} (hx : x = .error e) : cause e := by
  cases hx
  exact h

theorem ends_iff : x.Ends post cause ↔ (∀ a, x = .ok a → post a) ∧ ∀ e, x = .error e → cause e := by
  constructor
  · exact fun h => ⟨fun _ => h.ok, fun _ => h.error⟩
  · rintro ⟨hok, herror⟩
    cases x with
    | ok a => exact hok a rfl
    | error e => exact herror e rfl

theorem Ends.imp (h : x.Ends post cause) (hp : ∀ a, post a → wider a) : x.Ends wider cause := by
  cases x with
  | ok a => exact hp a h
  | error e => exact h

theorem Ends.imp_error (h : x.Ends post cause) (hc : ∀ e, cause e → broader e) : x.Ends post broader := by
  cases x with
  | ok a => exact h
  | error e => exact hc e h

theorem Ends.bind {f : α → Except ε β} {last : β → Prop} (hx : x.Ends post cause)
    (hf : ∀ a, post a → (f a).Ends last cause) : (x >>= f).Ends last cause := by
  cases x with
  | ok a => exact hf a hx
  | error e => exact hx

theorem Ends.map {f : α → β} {last : β → Prop} (hx : x.Ends post cause) (hf : ∀ a, post a → last (f a)) :
    (f <$> x).Ends last cause := by
  cases x with
  | ok a => exact hf a hx
  | error e => exact hx

theorem ends_ite {p : Prop} [Decidable p] {x y : Except ε α} (hx : x.Ends post cause) (hy : y.Ends post cause) :
    (if p then x else y).Ends post cause := by
  split
  · exact hx
  · exact hy

theorem ends_mapM {R : α → β → Prop} {f : α → Except ε β} {xs : List α} (hf : ∀ x ∈ xs, (f x).Ends (R x) cause) :
    (xs.mapM f).Ends (List.Forall₂ R xs) cause := by
  induction xs with
  | nil => exact List.Forall₂.nil
  | cons x xs ih =>
    obtain ⟨hhead, htail⟩ := List.forall_mem_cons.mp hf
    rw [List.mapM_cons]
    refine hhead.bind fun y hy => (ih htail).bind fun ys hys => ?_
    exact List.Forall₂.cons hy hys

end

end Except

namespace Stanza

def Fault.isConfig : Fault → Bool
  | .config _ => true
  | _ => false

def Fault.isReported : Fault → Bool
  | .config _ | .load _ => true
  | _ => false

theorem Fault.ne_config {fault : Fault} (h : fault.isReported = false) (e : ConfigError) : fault ≠ .config e := by
  rintro rfl
  cases h

theorem Fault.ne_load {fault : Fault} (h : fault.isReported = false) (e : LoadError) : fault ≠ .load e := by
  rintro rfl
  cases h

def Fault.isInternal : Fault → Bool
  | .config e => e.kind = .invariant
  | _ => false

theorem Fault.exists_internal {α : Type} {x : Except Fault α} (h : x.failsWith isInternal = true) :
    ∃ e, x = .error (.config e) ∧ e.kind = .invariant := by
  obtain ⟨fault, hx, hp⟩ := Except.failsWith_iff.mp h
  cases fault with
  | config e => exact ⟨e, hx, of_decide_eq_true hp⟩
  | _ => cases hp

theorem digits_eq_error_iff {α : Type} {x : Except Text.DigitLimitError α} {fault : Fault} :
    digits x = .error fault ↔ ∃ e, x = .error e ∧ .rejected (.digitLimit e) = fault := Except.mapError_eq_error_iff

namespace Logged

variable {α β : Type}

theorem result_bind_eq_error_iff {x : Logged α} {f : α → Logged β} {fault : Fault} :
    (x >>= f).result = .error fault ↔ x.result = .error fault ∨ ∃ a, x.result = .ok a ∧ (f a).result = .error fault := by
  rw [result_bind, Except.bind_eq_error_iff]

theorem result_mapM (f : α → Logged β) (xs : List α) : (xs.mapM f).result = xs.mapM fun x => (f x).result := by
  induction xs with
  | nil => rfl
  | cons x xs ih =>
    simp only [List.mapM_cons, result_bind, ih]
    rfl

theorem result_forIn (check : α → Except Fault Unit) (xs : List α) :
    (forIn xs PUnit.unit fun x _ => do
      (check x : Except Fault Unit)
      return ForInStep.yield PUnit.unit : Logged PUnit).result = (fun _ => ()) <$> xs.mapM check := by
  induction xs with
  | nil => rfl
  | cons x xs ih =>
    simp only [List.forIn_cons, List.mapM_cons, bind_assoc, pure_bind, result_bind, result_lift, ih, map_bind]
    rfl

end Logged

end Stanza
