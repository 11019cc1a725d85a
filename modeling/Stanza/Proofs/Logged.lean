import Mathlib.Data.List.Forall2
import Stanza.Logged

/-! # Results of computations in steps

A computation that gave a result ran each of its steps, and warns what its steps warn. Every stage of
resolution is opened by the lemmas here and not by unfolding its binds.
-/
namespace List

variable {α β : Type} {R : α → β → Prop} {xs : List α} {ys : List β}

theorem Forall₂.exists_of_mem_left (h : Forall₂ R xs ys) {x : α} (hx : x ∈ xs) : ∃ y ∈ ys, R x y := by
  induction h with
  | nil => cases hx
  | @cons a b as bs hab _ ih =>
    rcases List.mem_cons.mp hx with rfl | hx
    · exact ⟨b, List.mem_cons_self, hab⟩
    · obtain ⟨y, hy, hr⟩ := ih hx
      exact ⟨y, List.mem_cons_of_mem _ hy, hr⟩

theorem Forall₂.exists_of_mem_right (h : Forall₂ R xs ys) {y : β} (hy : y ∈ ys) : ∃ x ∈ xs, R x y :=
  h.flip.exists_of_mem_left hy

theorem Forall₂.imp_of_mem {S : α → β → Prop} (h : Forall₂ R xs ys) (hS : ∀ x, ∀ y ∈ ys, R x y → S x y) :
    Forall₂ S xs ys := by
  induction h with
  | nil => exact .nil
  | cons hxy _ ih => exact .cons (hS _ _ mem_cons_self hxy) (ih fun x y hy => hS x y (mem_cons_of_mem _ hy))

theorem Forall₂.map_eq {f : α → β} (h : Forall₂ R xs ys) (hf : ∀ x ∈ xs, ∀ y, R x y → f x = y) : xs.map f = ys := by
  rw [← forall₂_eq_eq_eq, forall₂_map_left_iff]
  exact ((forall₂_and_left xs ys).mpr ⟨hf, h⟩).imp fun x y hxy => hxy.1 y hxy.2

theorem Forall₂.map_eq_map {S : α → α → Prop} {f : α → β} {zs : List α} (h : Forall₂ S xs zs)
    (hf : ∀ x ∈ xs, ∀ z, S x z → f x = f z) : xs.map f = zs.map f := by
  rw [← forall₂_eq_eq_eq, forall₂_map_left_iff, forall₂_map_right_iff]
  exact ((forall₂_and_left xs zs).mpr ⟨hf, h⟩).imp fun x z hxz => hxz.1 z hxz.2

/-- What two lists become item by item is the same once more is done to it. -/
theorem Forall₂.map_eq_map_of_forall₂ {γ : Type} {S : α → α → Prop} {g : β → γ} {zs : List α} {bs : List β}
    (h : Forall₂ S xs zs) (hx : Forall₂ R xs ys) (hz : Forall₂ R zs bs)
    (hg : ∀ x ∈ xs, ∀ z a b, S x z → R x a → R z b → g a = g b) : ys.map g = bs.map g := by
  induction h generalizing ys bs with
  | nil =>
    cases hx
    cases hz
    rfl
  | cons hxz _ ih =>
    cases hx with
    | cons ha hx =>
      cases hz with
      | cons hb hz =>
        obtain ⟨hhead, htail⟩ := forall_mem_cons.mp hg
        rw [map_cons, map_cons, hhead _ _ _ hxz ha hb, ih hx hz htail]

theorem Forall₂.exists_between {γ : Type} {S : β → γ → Prop} {zs : List γ}
    (h : Forall₂ (fun x z => ∃ y, R x y ∧ S y z) xs zs) : ∃ ys, Forall₂ R xs ys ∧ Forall₂ S ys zs := by
  induction h with
  | nil => exact ⟨[], .nil, .nil⟩
  | cons hxz _ ih =>
    obtain ⟨y, hxy, hyz⟩ := hxz
    obtain ⟨ys, hr, hs⟩ := ih
    exact ⟨y :: ys, .cons hxy hr, .cons hyz hs⟩

theorem exists_forall₂ (h : ∀ x ∈ xs, ∃ y, R x y) : ∃ ys, Forall₂ R xs ys := by
  induction xs with
  | nil => exact ⟨[], .nil⟩
  | cons x xs ih =>
    obtain ⟨y, hy⟩ := h x mem_cons_self
    obtain ⟨ys, hys⟩ := ih fun x hx => h x (mem_cons_of_mem _ hx)
    exact ⟨y :: ys, .cons hy hys⟩

/-- The last step of a fold. -/
theorem foldlM_concat {m : Type → Type} [Monad m] [LawfulMonad m] (f : β → α → m β) (b : β) (xs : List α) (x : α) :
    (xs ++ [x]).foldlM f b = xs.foldlM f b >>= (f · x) := by
  simp only [foldlM_append, foldlM_cons, foldlM_nil, bind_pure]

end List

namespace Except

variable {ε ε' α β : Type}

theorem bind_eq_ok_iff {x : Except ε α} {f : α → Except ε β} {b : β} :
    (x >>= f) = .ok b ↔ ∃ a, x = .ok a ∧ f a = .ok b := by
  cases x with
  | error e => simp [bind, Except.bind]
  | ok a => simp [bind, Except.bind]

theorem map_eq_ok_iff {x : Except ε α} {f : α → β} {b : β} :
    f <$> x = .ok b ↔ ∃ a, x = .ok a ∧ f a = b := by
  cases x with
  | error e => simp [Functor.map, Except.map]
  | ok a => simp [Functor.map, Except.map]

theorem mapError_eq_ok_iff {x : Except ε α} {f : ε → ε'} {a : α} : x.mapError f = .ok a ↔ x = .ok a := by
  cases x with
  | error e => simp [Except.mapError]
  | ok b => simp [Except.mapError]

/-- A list is mapped item by item. -/
theorem mapM_eq_ok_iff {f : α → Except ε β} {xs : List α} {ys : List β} :
    xs.mapM f = .ok ys ↔ List.Forall₂ (fun x y => f x = .ok y) xs ys := by
  induction xs generalizing ys with
  | nil => simp [pure, Except.pure, eq_comm]
  | cons x xs ih =>
    simp only [List.mapM_cons, bind_eq_ok_iff, ih, List.forall₂_cons_left_iff]
    constructor
    · rintro ⟨y, hy, rest, hrest, h⟩
      cases h
      exact ⟨y, rest, hy, hrest, rfl⟩
    · rintro ⟨y, rest, hy, hrest, rfl⟩
      exact ⟨y, hy, rest, hrest, rfl⟩

theorem mapM_eq_ok_of_forall {f : α → Except ε β} {g : α → β} {xs : List α}
    (h : ∀ x ∈ xs, f x = .ok (g x)) : xs.mapM f = .ok (xs.map g) := by
  rw [mapM_eq_ok_iff, List.forall₂_map_right_iff, List.forall₂_same]
  exact h

end Except

namespace Stanza.Logged

variable {α β : Type}

theorem eq_of_result {x : Logged α} {ws : List Warning} {r : Except Fault α} (hw : x.warnings = ws)
    (hr : x.result = r) : x = ⟨ws, r⟩ := by
  cases x
  exact congrArg₂ Logged.mk hw hr

@[simp] theorem result_pure (a : α) : (pure a : Logged α).result = .ok a := rfl

@[simp] theorem warnings_pure (a : α) : (pure a : Logged α).warnings = [] := rfl

@[simp] theorem result_lift (r : Except Fault α) : (liftM r : Logged α).result = r := rfl

@[simp] theorem warnings_lift (r : Except Fault α) : (liftM r : Logged α).warnings = [] := rfl

@[simp] theorem result_warn (ws : List Warning) : (warn ws).result = .ok () := rfl

@[simp] theorem result_fail (e : Fault) : (fail e : Logged α).result = .error e := rfl

@[simp] theorem result_bind (x : Logged α) (f : α → Logged β) :
    (x >>= f).result = x.result >>= fun a => (f a).result := by
  change (Logged.bind x f).result = _
  unfold Logged.bind
  cases x.result <;> rfl

/-- What follows without a warning changes none. -/
theorem warnings_bind_of_forall (x : Logged α) {f : α → Logged β} (h : ∀ a, (f a).warnings = []) :
    (x >>= f).warnings = x.warnings := by
  change (Logged.bind x f).warnings = _
  unfold Logged.bind
  cases x.result with
  | error e => rfl
  | ok a => simp [h a]

theorem warnings_map (f : α → β) (x : Logged α) : (f <$> x).warnings = x.warnings := by
  rcases x with ⟨ws, r⟩
  cases r with
  | error e => rfl
  | ok a => exact List.append_nil ws

theorem result_map (f : α → β) (x : Logged α) : (f <$> x).result = f <$> x.result := by
  rcases x with ⟨ws, r⟩
  cases r <;> rfl

theorem result_bind_eq_ok_iff {x : Logged α} {f : α → Logged β} {b : β} :
    (x >>= f).result = .ok b ↔ ∃ a, x.result = .ok a ∧ (f a).result = .ok b := by
  rw [result_bind, Except.bind_eq_ok_iff]

instance : LawfulMonad Logged := by
  refine LawfulMonad.mk' Logged ?_ ?_ ?_
  · intro α x
    change Logged.bind x _ = x
    rcases x with ⟨ws, r⟩
    cases r <;> simp [Logged.bind]
  · intro α β a f
    change Logged.bind (pure a) f = f a
    simp [Logged.bind]
  · intro α β γ x f g
    change Logged.bind (Logged.bind x f) g = Logged.bind x fun a => Logged.bind (f a) g
    rcases x with ⟨ws, r⟩
    cases r with
    | error e => rfl
    | ok a => cases hf : (f a).result <;> simp [Logged.bind, hf]

theorem result_mapM_eq_ok_iff {f : α → Logged β} {xs : List α} {ys : List β} :
    (xs.mapM f).result = .ok ys ↔ List.Forall₂ (fun x y => (f x).result = .ok y) xs ys := by
  induction xs generalizing ys with
  | nil => simp [eq_comm]
  | cons x xs ih =>
    simp only [List.mapM_cons, result_bind_eq_ok_iff, ih, List.forall₂_cons_left_iff, result_pure, Except.ok.injEq]
    constructor
    · rintro ⟨y, hy, rest, hrest, rfl⟩
      exact ⟨y, rest, hy, hrest, rfl⟩
    · rintro ⟨y, rest, hy, hrest, rfl⟩
      exact ⟨y, hy, rest, hrest, rfl⟩

/-- A loop over checks that give nothing. -/
theorem result_forIn_eq_ok_iff {check : α → Except Fault Unit} {xs : List α} :
    (forIn xs PUnit.unit fun x _ => do
      (check x : Except Fault Unit)
      return ForInStep.yield PUnit.unit : Logged PUnit).result = .ok PUnit.unit ↔ ∀ x ∈ xs, check x = .ok () := by
  induction xs with
  | nil => simp
  | cons x xs ih =>
    simp only [List.forIn_cons, bind_assoc, pure_bind, result_bind_eq_ok_iff, List.forall_mem_cons, ← ih, result_lift]
    exact ⟨fun ⟨_, h⟩ => h, fun h => ⟨(), h⟩⟩

end Stanza.Logged
