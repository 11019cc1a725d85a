import Mathlib.Data.List.Infix
import Stanza.Proofs.Logged.Failure

/-! # Readers of text

A reader takes a prefix of its text and gives back the rest, or it fails for a reason that is found in the text.
-/
namespace Stanza

/-- Errors with a reason in a text, which is still there in a text with more in front. -/
class Caused (σ ε : Type) where
  Of : List σ → ε → Prop
  mono : ∀ {cs ds : List σ} {e : ε}, cs <:+ ds → Of cs e → Of ds e

variable {σ ε α β : Type} [Caused σ ε] {cs ds : List σ} {post : α → Prop}

/-- A result is as expected, and an error has a reason in the text. -/
abbrev Completes (cs : List σ) (post : α → Prop) (x : Except ε α) : Prop := x.Ends post (Caused.Of cs)

theorem Completes.mono {x : Except ε α} (hs : cs <:+ ds) (h : Completes cs post x) : Completes ds post x :=
  h.imp_error fun _ he => Caused.mono hs he

/-- The same of a reader: what it gives back is the end of its text. -/
def ReadsFrom (cs : List σ) (post : α → Prop) (x : Except ε (α × List σ)) : Prop :=
  Completes cs (fun p => p.2 <:+ cs ∧ post p.1) x

abbrev Anything {α : Type} : α → Prop := fun _ => True

theorem readsFrom_ok {a : α} (hs : ds <:+ cs) (ha : post a) : ReadsFrom cs post (.ok (a, ds) : Except ε _) := ⟨hs, ha⟩

theorem ReadsFrom.mono {x : Except ε (α × List σ)} (hs : cs <:+ ds) (h : ReadsFrom cs post x) : ReadsFrom ds post x :=
  (Completes.mono hs h).imp fun _ hp => ⟨hp.1.trans hs, hp.2⟩

theorem ReadsFrom.bind {x : Except ε (α × List σ)} {f : α × List σ → Except ε (β × List σ)} {next : β → Prop}
    (hx : ReadsFrom cs post x) (hf : ∀ a rest, rest <:+ cs → post a → ReadsFrom rest next (f (a, rest))) :
    ReadsFrom cs next (x >>= f) :=
  Except.Ends.bind hx fun p hp => (hf p.1 p.2 hp.1 hp.2).mono hp.1

theorem ReadsFrom.complete {x : Except ε (α × List σ)} {f : α × List σ → Except ε β} {last : β → Prop}
    (hx : ReadsFrom cs post x) (hf : ∀ a rest, rest <:+ cs → post a → Completes rest last (f (a, rest))) :
    Completes cs last (x >>= f) :=
  Except.Ends.bind hx fun p hp => (hf p.1 p.2 hp.1 hp.2).mono hp.1

abbrev Skips (cs : List σ) (x : Except ε (List σ)) : Prop := Completes cs (· <:+ cs) x

theorem Skips.mono {x : Except ε (List σ)} (hs : cs <:+ ds) (h : Skips cs x) : Skips ds x :=
  (Completes.mono hs h).imp fun _ hp => hp.trans hs

theorem Skips.reads {x : Except ε (List σ)} {f : List σ → Except ε (β × List σ)} {next : β → Prop}
    (hx : Skips cs x) (hf : ∀ rest, rest <:+ cs → ReadsFrom rest next (f rest)) : ReadsFrom cs next (x >>= f) :=
  Except.Ends.bind hx fun rest hrest => (hf rest hrest).mono hrest

theorem Skips.complete {x : Except ε (List σ)} {f : List σ → Except ε β} {last : β → Prop}
    (hx : Skips cs x) (hf : ∀ rest, rest <:+ cs → Completes rest last (f rest)) : Completes cs last (x >>= f) :=
  Except.Ends.bind hx fun rest hrest => (hf rest hrest).mono hrest

end Stanza
