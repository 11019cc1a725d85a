import Stanza.Proofs.Time.Span
import Stanza.Time.Period

/-! # How long periods are

A period becomes a span unless it has too many days, and the longer of two spans comes from the longer of two periods.
Back from a span, the units below a day are as small as they can be, which leaves one period for every length.
-/
namespace Stanza

namespace Span

variable {m : Int} {s : Span}

/-- Only the number of days decides. -/
theorem exists_ofMicros_iff : (∃ s, ofMicros m = .ok s) ↔ -maxDays ≤ m.fdiv dayMicros ∧ m.fdiv dayMicros ≤ maxDays := by
  simp only [ofMicros]
  split
  · next h => exact iff_of_true ⟨_, rfl⟩ h
  · next h =>
    refine iff_of_false ?_ h
    rintro ⟨s, hs⟩
    split at hs <;> cases hs

theorem exists_error_iff : (∃ e, ofMicros m = .error e) ↔ ¬ ∃ s, ofMicros m = .ok s := by
  cases ofMicros m with
  | ok s =>
    refine iff_of_false ?_ fun h => h ⟨s, rfl⟩
    rintro ⟨e, he⟩
    cases he
  | error e =>
    refine iff_of_true ⟨e, rfl⟩ ?_
    rintro ⟨s, hs⟩
    cases hs

/-- A span that is not negative is followed by all the shorter ones. -/
theorem exists_ofMicros_of_le (hm : 0 ≤ m) (hle : m ≤ s.micros) : ∃ t, ofMicros m = .ok t := by
  have hhi := s.days_le
  rw [Int.fdiv_eq_ediv_of_nonneg _ (by decide)] at hhi
  rw [exists_ofMicros_iff, Int.fdiv_eq_ediv_of_nonneg _ (by decide)]
  simp only [maxDays, dayMicros, secondMicros] at hhi ⊢
  omega

end Span

namespace Period

variable {p q : Period} {s t : Span}

/-- Every unit below a day stays below the next one. -/
structure Normal (p : Period) : Prop where
  hours_lt : p.hours < 24
  minutes_lt : p.minutes < 60
  seconds_lt : p.seconds < 60
  millis_lt : p.millis < 1000

theorem total_eq (p : Period) : p.total =
    p.days * 86400000 + p.hours * 3600000 + p.minutes * 60000 + p.seconds * 1000 + p.millis := by
  rw [total]
  omega

/-! ## Normal periods -/

theorem normal_ofMillis (n : Nat) : (ofMillis n).Normal where
  hours_lt := Nat.mod_lt _ (by decide)
  minutes_lt := Nat.mod_lt _ (by decide)
  seconds_lt := Nat.mod_lt _ (by decide)
  millis_lt := Nat.mod_lt _ (by decide)

theorem total_ofMillis (n : Nat) : (ofMillis n).total = n := by
  rw [total_eq]
  simp only [ofMillis]
  omega

theorem Normal.ofMillis_total (h : p.Normal) : ofMillis p.total = p := by
  obtain ⟨hhours, hminutes, hseconds, hmillis⟩ := h
  rcases p with ⟨d, h, m, s, ms⟩
  dsimp only at hhours hminutes hseconds hmillis
  simp only [total_eq, ofMillis, Period.mk.injEq]
  omega

/-- There is one normal period of each length. -/
theorem normal_iff_eq_ofMillis {n : Nat} : p.Normal ∧ p.total = n ↔ ofMillis n = p := by
  constructor
  · rintro ⟨hp, rfl⟩
    exact hp.ofMillis_total
  · rintro rfl
    exact ⟨normal_ofMillis n, total_ofMillis n⟩

/-! ## Periods as spans -/

theorem micros_of_toSpan (h : p.toSpan = .ok s) : s.micros = p.total * 1000 := Span.micros_of_ofMicros h

theorem exists_toSpan_iff : (∃ s, p.toSpan = .ok s) ↔ p.total / 86400000 ≤ 999999999 := by
  rw [toSpan, Span.exists_ofMicros_iff, Int.fdiv_eq_ediv_of_nonneg _ (by decide)]
  simp only [maxDays, dayMicros, secondMicros]
  omega

theorem longerThan_of_toSpan (hp : p.toSpan = .ok s) (hq : q.toSpan = .ok t) :
    p.longerThan q = .ok (decide (q.total < p.total)) := by
  have hlt : s.micros > t.micros ↔ q.total < p.total := by
    rw [micros_of_toSpan hp, micros_of_toSpan hq]
    omega
  rw [longerThan, hp, hq]
  exact congrArg Except.ok (decide_eq_decide.mpr hlt)

/-! ## Spans as periods -/

theorem ofSpan?_of_nonneg (h : 0 ≤ s.micros) : ofSpan? s = some (ofMillis (s.micros.toNat / 1000)) := if_neg (by omega)

theorem ofSpan?_eq_none_iff : ofSpan? s = none ↔ s.micros < 0 := by
  simp [ofSpan?]

/-- What does not make a millisecond is lost, and nothing else. -/
theorem exists_toSpan_ofMillis (h : 0 ≤ s.micros) :
    ∃ t, (ofMillis (s.micros.toNat / 1000)).toSpan = .ok t ∧ t.micros = s.micros - s.micros % 1000 := by
  have hcut : ((s.micros.toNat / 1000 : Nat) : Int) * 1000 = s.micros - s.micros % 1000 := by omega
  obtain ⟨t, ht⟩ : ∃ t, Span.ofMicros (s.micros - s.micros % 1000) = .ok t :=
    Span.exists_ofMicros_of_le (s := s) (by omega) (by omega)
  refine ⟨t, ?_, Span.micros_of_ofMicros ht⟩
  rw [toSpan, total_ofMillis, hcut]
  exact ht

theorem ofSpan?_of_toSpan (h : p.toSpan = .ok s) : ofSpan? s = some (ofMillis p.total) := by
  have hs := micros_of_toSpan h
  rw [ofSpan?_of_nonneg (by omega), hs]
  congr 2
  omega

/-- A period has a span unless it has more than 999999999 days, and then the range is exceeded. Of two spans the
longer one comes from the longer period. A span that is not negative is a normal period, whose span is the span
without what is below a millisecond, and a negative one is none. So a period becomes the one normal period that is
as long. -/
theorem toSpan_ofSpan? (p : Period) :
    ((∃ s, p.toSpan = .ok s) ↔ p.total / 86400000 ≤ 999999999)
      ∧ ((∃ e, p.toSpan = .error e) ↔ 999999999 < p.total / 86400000)
      ∧ (∀ q s t, p.toSpan = .ok s → q.toSpan = .ok t → p.longerThan q = .ok (decide (q.total < p.total)))
      ∧ (∀ t : Span, 0 ≤ t.micros → ∃ r, ofSpan? t = some r ∧ r.Normal
        ∧ ∃ s, r.toSpan = .ok s ∧ s.micros = t.micros - t.micros % 1000)
      ∧ (∀ t : Span, ofSpan? t = none ↔ t.micros < 0)
      ∧ ∀ s, p.toSpan = .ok s → ∀ r, ofSpan? s = some r ↔ r.Normal ∧ r.total = p.total := by
  have herror : (∃ e, p.toSpan = .error e) ↔ ¬ ∃ s, p.toSpan = .ok s := Span.exists_error_iff
  refine ⟨exists_toSpan_iff, ?_, fun q s t => longerThan_of_toSpan, fun t ht => ?_, fun t => ofSpan?_eq_none_iff, ?_⟩
  · rw [herror, exists_toSpan_iff, not_le]
  · exact ⟨_, ofSpan?_of_nonneg ht, normal_ofMillis _, exists_toSpan_ofMillis ht⟩
  · intro s hs r
    rw [ofSpan?_of_toSpan hs, Option.some.injEq]
    exact normal_iff_eq_ofMillis.symm

/-- More than a day in hours and seconds, and a span with half a millisecond left over. -/
theorem toSpan_ofSpan?_hours :
    (∃ s, Period.toSpan { hours := 25, seconds := 61 } = .ok s ∧ ofSpan? s = some ⟨1, 1, 1, 1, 0⟩)
      ∧ Period.longerThan { hours := 25, seconds := 61 } { days := 1, hours := 1, minutes := 1 } = .ok true
      ∧ ∃ r, ofSpan? ⟨1001500, by decide, by decide⟩ = some r ∧ r.Normal
        ∧ ∃ s, r.toSpan = .ok s ∧ s.micros = 1001000 := by
  obtain ⟨hspan, -, hlonger, hback, -, hnormal⟩ := toSpan_ofSpan? { hours := 25, seconds := 61 }
  obtain ⟨s, hs⟩ := hspan.mpr (by decide)
  obtain ⟨t, ht⟩ := (toSpan_ofSpan? { days := 1, hours := 1, minutes := 1 }).1.mpr (by decide)
  refine ⟨⟨s, hs, (hnormal s hs _).mpr ⟨⟨?_, ?_, ?_, ?_⟩, ?_⟩⟩, hlonger _ s t hs ht, ?_⟩
  · decide
  · decide
  · decide
  · decide
  · decide
  · exact hback ⟨1001500, by decide, by decide⟩ (by decide)

end Period

end Stanza
