import Mathlib.Tactic.Positivity
import Mathlib.Tactic.Ring
import Stanza.Proofs.Text.Integer
import Stanza.Time.Span

/-! # Spans made of whole units

A span made from minutes or days has that many, although minutes are counted in the length as a double. The
count of either is short enough to be written.
-/
namespace Stanza

theorem Decimal.Ratio.round_mul_self {k d : Nat} (h : 0 < d) : (Decimal.Ratio.mk (k * d) d).round = k := by
  simp only [Decimal.Ratio.round, Nat.mul_div_cancel k h, Nat.mul_mod_left, Nat.mul_zero]
  rw [if_pos (.inl h)]

namespace Span

theorem ext_iff {s t : Span} : s = t ↔ s.micros = t.micros := by
  cases s
  cases t
  simp

theorem micros_of_ofMicros {m : Int} {s : Span} (h : ofMicros m = .ok s) : s.micros = m := by
  simp only [ofMicros] at h
  split at h
  · cases h; rfl
  · split at h <;> cases h

theorem micros_of_ofMinutes {n : Int} {s : Span} (h : ofMinutes n = .ok s) : s.micros = n * minuteMicros :=
  micros_of_ofMicros h

theorem micros_of_ofDays {n : Int} {s : Span} (h : ofDays n = .ok s) : s.micros = n * dayMicros :=
  micros_of_ofMicros h

/-- A whole number of minutes is a whole number of seconds, which no double of this size loses. -/
theorem wholeMinutes_of_ofMinutes {n : Int} {s : Span} (h : ofMinutes n = .ok s) : s.wholeMinutes = n := by
  have hm := micros_of_ofMinutes h
  simp only [minuteMicros, secondMicros] at hm
  simp only [wholeMinutes, Nat.shiftLeft_eq]
  generalize hp : 52 - Nat.log2 (s.micros.natAbs / 1000000) = places
  have hlen : s.micros.natAbs * 2 ^ places = n.natAbs * 60 * 2 ^ places * 1000000 := by
    rw [hm, Int.natAbs_mul, show (60 * 1000000 : Int).natAbs = 60 * 1000000 from rfl]
    ring
  have hcast : ((60 * 2 ^ places : Nat) : Int) = 60 * 2 ^ places := by push_cast; rfl
  rw [hlen, Decimal.Ratio.round_mul_self (by decide), hcast]
  have hpos : (60 * 2 ^ places : Int) ≠ 0 := by positivity
  by_cases hn : n < 0
  · rw [if_pos (by omega)]
    have hz : -((n.natAbs * 60 * 2 ^ places : Nat) : Int) = n * (60 * 2 ^ places) := by
      push_cast
      rw [abs_of_neg hn]
      ring
    rw [hz, Int.mul_fdiv_cancel _ hpos]
  · rw [if_neg (by omega)]
    have hz : ((n.natAbs * 60 * 2 ^ places : Nat) : Int) = n * (60 * 2 ^ places) := by
      push_cast
      rw [abs_of_nonneg (by omega)]
      ring
    rw [hz, Int.mul_fdiv_cancel _ hpos]

theorem days_of_ofDays {n : Int} {s : Span} (h : ofDays n = .ok s) : s.days = n := by
  rw [days, micros_of_ofDays h]
  exact Int.mul_fdiv_cancel _ (by decide)

/-- Fewer than `10 ^ 20` microseconds, either way. -/
theorem natAbs_micros_lt (s : Span) : s.micros.natAbs < 10 ^ 20 := by
  have hlo := s.days_ge
  have hhi := s.days_le
  rw [Int.fdiv_eq_ediv_of_nonneg _ (by decide)] at hlo hhi
  simp only [maxDays, dayMicros, secondMicros] at hlo hhi
  omega

theorem writable_of_dvd_micros {s : Span} {n k : Int} (h : s.micros = n * k) (hk : k ≠ 0) : Text.Writable n := by
  have hlt := s.natAbs_micros_lt
  have hle : n.natAbs ≤ s.micros.natAbs := by
    rw [h, Int.natAbs_mul]
    exact Nat.le_mul_of_pos_right _ (Int.natAbs_pos.mpr hk)
  have hl : (Nat.toDigits 10 n.natAbs).length ≤ 20 :=
    (Nat.length_toDigits_le_iff (by decide) (by decide)).mpr (hle.trans_lt hlt)
  exact hl.trans (by decide)

end Span

end Stanza
