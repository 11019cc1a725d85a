import Stanza.Log.Redaction
import Stanza.Proofs.Text.Integer
import Stanza.Proofs.Time.Span

/-! # Lengths of time as doubles

The length of a span in seconds is a double, and doubles have an end. A span has less than `2 ^ 67` microseconds, and a
number of that size divided by a million is far from it. How far is not needed, so the exponent is followed through
division and rounding by bounds that are easy to carry along, not by its exact value.
-/
namespace Stanza

namespace Decimal

open Float.Model Float.Model.UnpackedFloat

/-! ## Exponents -/

/-- Zero, or a number with an exponent of at most `b`. -/
def AtMost (b : Int) : UnpackedFloat → Prop
  | .zero _ => True
  | .finite _ _ e _ => e ≤ b
  | .infinity _ | .notANumber => False

section

variable {x : UnpackedFloat} {b c e : Int} {m n j k : Nat}

theorem AtMost.mono (hbc : b ≤ c) (h : AtMost b x) : AtMost c x := by
  cases x with
  | zero s => trivial
  | finite s m e hm => exact le_trans h hbc
  | infinity s => exact h
  | notANumber => exact h

theorem AtMost.neg (h : AtMost b x) : AtMost b x.neg := by
  cases x <;> exact h

theorem targetExponent_eq (total : Int) : Format.binary64.targetExponent total = max (total - 53) (-1074) := rfl

theorem log2_lt (hk : 1 ≤ k) (hm : m < 2 ^ k) : m.log2 < k := by
  by_cases h0 : m = 0
  · rw [h0, Nat.log2_zero]
    exact hk
  · exact (Nat.log2_lt h0).mpr hm

theorem shiftLeft_lt (hm : m < 2 ^ k) (n : Nat) : m <<< n < 2 ^ (k + n) := by
  rw [Nat.shiftLeft_eq, Nat.pow_add]
  exact Nat.mul_lt_mul_of_pos_right hm (Nat.two_pow_pos n)

/-! ## Rounding -/

theorem mantissa_shiftRight_le (em : ExtendedMantissa) (n : Nat) : (em >>> n).mantissa ≤ em.mantissa := by
  induction n with
  | zero => exact le_rfl
  | succ n ih => exact (Nat.div_le_self _ 2).trans ih

theorem mantissa_ofMantissaAndAccuracy (m : Nat) (accuracy : Accuracy) :
    (ExtendedMantissa.ofMantissaAndAccuracy m accuracy).mantissa = m := by
  rcases accuracy with _ | (_ | _ | _) <;> rfl

theorem roundedMantissa_le (em : ExtendedMantissa) : em.roundedMantissa ≤ em.mantissa + 1 := by
  obtain ⟨m, round, sticky⟩ := em
  cases round <;> cases sticky <;>
    simp only [ExtendedMantissa.roundedMantissa, ExtendedMantissa.accuracy, Accuracy.roundToNearestEven] <;> omega

theorem shiftToTargetExponent_le (hk : 1 ≤ k) (hm : m < 2 ^ k) (accuracy : Accuracy) {em : ExtendedMantissa}
    (h : shiftToTargetExponent Format.binary64 m e accuracy = (em, c)) :
    em.mantissa ≤ m ∧ -1074 ≤ c ∧ c ≤ max (e + k) (-1074) := by
  have hlog := log2_lt hk hm
  obtain ⟨rfl, rfl⟩ := Prod.mk.inj h
  refine ⟨(mantissa_shiftRight_le _ _).trans_eq (mantissa_ofMantissaAndAccuracy _ _), ?_, ?_⟩
  · simp only [targetExponent_eq, totalExponent]
    omega
  · simp only [targetExponent_eq, totalExponent]
    omega

theorem atMost_roundWithAccuracy (hk : 1 ≤ k) (hm : m < 2 ^ k) (sign : Sign) (e : Int) (accuracy : Accuracy) :
    AtMost (max (e + k) (-1074) + (k + 1)) (roundWithAccuracy Format.binary64 sign m e accuracy) := by
  obtain ⟨⟨em, e₁⟩, hfirst⟩ : ∃ first, shiftToTargetExponent Format.binary64 m e accuracy = first := ⟨_, rfl⟩
  obtain ⟨hmantissa, hlow, hhigh⟩ := shiftToTargetExponent_le hk hm accuracy hfirst
  have hrounded : em.roundedMantissa < 2 ^ (k + 1) := by
    have hle := roundedMantissa_le em
    rw [Nat.pow_succ]
    omega
  obtain ⟨⟨last, e₂⟩, hsecond⟩ : ∃ second, shiftToTargetExponent Format.binary64 em.roundedMantissa e₁ .exact = second :=
    ⟨_, rfl⟩
  obtain ⟨-, -, hlast⟩ := shiftToTargetExponent_le (by omega) hrounded .exact hsecond
  rw [roundWithAccuracy, hfirst]
  dsimp only
  rw [hsecond]
  dsimp only
  by_cases hzero : last.mantissa = 0
  · rw [dif_pos hzero]
    trivial
  · rw [dif_neg hzero]
    change e₂ ≤ _
    omega

theorem atMost_div {s₁ s₂ : Sign} {m₁ m₂ : Nat} {e₁ e₂ : Int} {h₁ : 0 < m₁} {h₂ : 0 < m₂} (hj : 1 ≤ j) (hm₁ : m₁ < 2 ^ j)
    (hm₂ : m₂ < 2 ^ k) :
    AtMost (max (e₁ - e₂ + j) (-1074) + (j + k + 54)) (div Format.binary64 (.finite s₁ m₁ e₁ h₁) (.finite s₂ m₂ e₂ h₂)) := by
  have hlog : m₂.log2 < k := (Nat.log2_lt h₂.ne').mpr hm₂
  obtain ⟨target, htarget⟩ : ∃ target : Int, min (e₁ - e₂)
      (Format.binary64.targetExponent (totalExponent m₁ e₁ - totalExponent m₂ e₂)) = target := ⟨_, rfl⟩
  have hquotient : m₁ <<< (e₁ - e₂ - target).toNat / m₂ < 2 ^ (j + (e₁ - e₂ - target).toNat) :=
    (Nat.div_le_self _ _).trans_lt (shiftLeft_lt hm₁ _)
  change AtMost _ (roundWithAccuracy Format.binary64 (s₁ / s₂) (divCore Format.binary64 m₁ e₁ m₂ e₂).1
    (divCore Format.binary64 m₁ e₁ m₂ e₂).2.1 (divCore Format.binary64 m₁ e₁ m₂ e₂).2.2)
  simp only [divCore, htarget]
  refine (atMost_roundWithAccuracy (by omega) hquotient _ _ _).mono ?_
  rw [targetExponent_eq, totalExponent, totalExponent] at htarget
  omega

theorem atMost_ofNat (hj : 1 ≤ j) (hn : n < 2 ^ j) : AtMost (2 * j + 54) (UnpackedFloat.ofNat Format.binary64 n) := by
  have hpos : AtMost (2 * j + 54) (UnpackedFloat.round Format.binary64 .positive n 0) := by
    obtain ⟨target, htarget⟩ : ∃ target : Int, Format.binary64.targetExponent (totalExponent n 0) = target := ⟨_, rfl⟩
    rw [UnpackedFloat.round, decreaseExponent]
    simp only [htarget]
    refine (atMost_roundWithAccuracy (by omega) (shiftLeft_lt hn _) _ _ _).mono ?_
    rw [targetExponent_eq, totalExponent] at htarget
    omega
  rw [UnpackedFloat.ofNat, UnpackedFloat.ofInt, UnpackedFloat.normalize]
  cases hsign : compare (n : Int) 0 with
  | lt =>
    rw [Int.compare_eq_lt] at hsign
    omega
  | eq => trivial
  | gt => exact hpos

/-! ## Bits -/

theorem toNat_unpackExponent (bits : BitVec Format.binary64.numBits) :
    (unpackExponent bits).toNat = bits.toNat / hiddenBit % 2048 := by
  simp [unpackExponent, Nat.shiftRight_eq_div_pow, hiddenBit]

/-- The exponent that is stored. -/
theorem unpackExponent_pack_le (hb : b ≤ 971) (h : AtMost b x) :
    (unpackExponent (UnpackedFloat.pack Format.binary64 x)).toNat ≤ (b + 1075).toNat := by
  cases x with
  | zero s =>
    change (unpackExponent (packedZero Format.binary64 s)).toNat ≤ _
    simp [packedZero]
  | infinity s => exact h.elim
  | notANumber => exact h.elim
  | finite s m e hm =>
    have he : e ≤ b := h
    have hbias : e + (Format.binary64.exponentBias : Int) + ((52 : Nat) : Int) = e + 1075 := by
      simp only [Format.exponentBias]
      omega
    unfold UnpackedFloat.pack
    simp only [hbias]
    rw [if_neg (by omega)]
    split
    · rw [unpackExponent_packComponents, BitVec.toNat_ofNat]
      exact (Nat.mod_le _ _).trans (by omega)
    · rw [unpackExponent_packComponents]
      exact Nat.zero_le _

/-- In infinities and in what is not a number all bits of the exponent are set. -/
theorem toNat_ones : (-1#_ : BitVec Format.binary64.exponentBits).toNat = 2047 := by decide

theorem toNat_append_pos {w : Nat} (bits : BitVec w) : 0 < (1#1 ++ bits).toNat := by simp

/-- A number has at most 53 digits and the exponent that was stored. -/
theorem unpack_cases {bits : BitVec Format.binary64.numBits} (hb : b ≤ 971) (hlow : -1074 ≤ b)
    (h : (unpackExponent bits).toNat ≤ (b + 1075).toNat) :
    (∃ s, UnpackedFloat.unpack Format.binary64 bits = .zero s) ∨
      ∃ s m e hm, UnpackedFloat.unpack Format.binary64 bits = .finite s m e hm ∧ m < 2 ^ 53 ∧ e ≤ b := by
  have hfinite : unpackExponent bits ≠ -1#_ := by
    intro hones
    rw [hones, toNat_ones] at h
    omega
  have hbias : (Format.binary64.exponentBias : Int) + ((52 : Nat) : Int) = 1075 := rfl
  unfold UnpackedFloat.unpack
  dsimp only
  rw [if_neg hfinite]
  by_cases hzero : unpackExponent bits = 0#_
  · rw [if_pos hzero]
    by_cases hmantissa : unpackMantissa bits = 0#_
    · rw [dif_pos hmantissa]
      exact .inl ⟨_, rfl⟩
    · rw [dif_neg hmantissa]
      have hpos : 0 < (unpackMantissa bits).toNat := Nat.pos_of_ne_zero fun h0 => hmantissa (BitVec.eq_of_toNat_eq h0)
      refine .inr ⟨_, _, _, hpos, rfl, (unpackMantissa bits).isLt.trans (by decide), ?_⟩
      rw [hzero, BitVec.toNat_zero]
      omega
  · rw [if_neg hzero]
    exact .inr ⟨_, _, _, toNat_append_pos _, rfl, (1#1 ++ unpackMantissa bits).isLt, by omega⟩

theorem atMost_unpack {bits : BitVec Format.binary64.numBits} (hb : b ≤ 971) (hlow : -1074 ≤ b)
    (h : (unpackExponent bits).toNat ≤ (b + 1075).toNat) : AtMost b (UnpackedFloat.unpack Format.binary64 bits) := by
  rcases unpack_cases hb hlow h with ⟨s, hs⟩ | ⟨s, m, e, hm, hs, -, he⟩
  · rw [hs]
    trivial
  · rw [hs]
    exact he

end

def bits (x : Float) : BitVec Format.binary64.numBits := x.toBits.toBitVec

end Decimal

namespace Log

open Decimal Float.Model Float.Model.UnpackedFloat

/-! ## Finite doubles -/

theorem isFinite_iff {x : Float} : isFinite x = true ↔ (unpackExponent (bits x)).toNat ≤ 2046 := by
  have hlt : x.toBits.toNat / hiddenBit % 2048 < 2048 := Nat.mod_lt _ (by decide)
  have hbits : (unpackExponent (bits x)).toNat = x.toBits.toNat / hiddenBit % 2048 := toNat_unpackExponent (bits x)
  rw [hbits, isFinite, Parts.ofFloat]
  split_ifs <;> simp <;> omega

theorem isFinite_ofModel {x : UnpackedFloat} (h : AtMost 971 x) : isFinite (.ofModel (.pack x)) = true :=
  isFinite_iff.mpr (unpackExponent_pack_le le_rfl h)

theorem isFinite_neg {x : Float} (h : isFinite x = true) : isFinite (-x) = true :=
  isFinite_ofModel (atMost_unpack le_rfl (by decide) (isFinite_iff.mp h)).neg

/-- Integers below `2 ^ 53` are divided by a million as it is stored. -/
theorem unpack_million : (Float.exactlyRepresentablePowersOfTen[6]).toModel.unpack =
    .finite .positive 0x1E848000000000 (-33) (by decide) := by
  rfl

theorem unpack_toFloat (n : UInt64) : n.toFloat.toModel.unpack =
    UnpackedFloat.unpack Format.binary64 (UnpackedFloat.pack Format.binary64 (UnpackedFloat.ofNat Format.binary64 n.toNat)) :=
  rfl

theorem isFinite_div_million (n : UInt64) : isFinite (n.toFloat / Float.exactlyRepresentablePowersOfTen[6]) = true := by
  have hn : AtMost 182 (UnpackedFloat.ofNat Format.binary64 n.toNat) := atMost_ofNat (j := 64) (by decide) n.toNat_lt
  refine isFinite_ofModel (x := UnpackedFloat.div Format.binary64 n.toFloat.toModel.unpack _) ?_
  rw [unpack_million, unpack_toFloat]
  rcases unpack_cases (by decide) (by decide) (unpackExponent_pack_le (by decide) hn)
    with ⟨s, hs⟩ | ⟨s, m, e, hpos, hs, hm, he⟩
  · rw [hs]
    trivial
  · rw [hs]
    refine (atMost_div (j := 53) (k := 53) (by decide) hm (by decide)).mono ?_
    omega

theorem isFinite_model_ofScientific {m : Nat} (hm : m < 2 ^ 67) :
    isFinite (.ofModel (Float.Model.ofScientific m (-6))) = true := by
  rw [Float.Model.ofScientific]
  refine isFinite_ofModel ?_
  rw [UnpackedFloat.ofScientific]
  by_cases hzero : m = 0
  · rw [dif_pos hzero]
    trivial
  rw [dif_neg hzero, if_neg (by decide)]
  by_cases hlow : (-6 : Int) < -(2 ^ Format.binary64.exponentBits + (m.log2 : Int))
  · rw [if_pos hlow]
    trivial
  · rw [if_neg hlow, if_neg (by decide)]
    exact (atMost_div (j := 67) (k := 20) (by decide) hm (by decide)).mono (by decide)

theorem isFinite_ofScientific {m : Nat} (hm : m < 2 ^ 67) : isFinite (Float.ofScientific m true 6) = true := by
  rw [Float.ofScientific]
  split
  · exact isFinite_div_million _
  · exact isFinite_model_ofScientific hm

theorem isFinite_toDouble {digits : List Nat} (h : ∀ d ∈ digits, d < 10) (hlen : digits.length ≤ 20) (negative : Bool) :
    isFinite (toDouble negative digits (-6)) = true := by
  have hle : (digits.dropWhile (· == 0)).length ≤ 20 := (List.dropWhile_suffix _).length_le.trans hlen
  have hvalue : Text.natOfDigits 10 (digits.dropWhile (· == 0)) < 2 ^ 67 :=
    calc Text.natOfDigits 10 (digits.dropWhile (· == 0))
      _ < 10 ^ (digits.dropWhile (· == 0)).length :=
        Text.natOfDigits_lt fun d hd => h d ((List.dropWhile_suffix _).subset hd)
      _ ≤ 10 ^ 20 := Nat.pow_le_pow_right (by decide) hle
      _ ≤ 2 ^ 67 := by decide
  have hsigned : ∀ x : Float, isFinite x = true → isFinite (if negative then -x else x) = true := by
    intro x hx
    cases negative with
    | false => exact hx
    | true => exact isFinite_neg hx
  rw [toDouble]
  refine hsigned _ ?_
  split_ifs with hnone hhuge hsign
  · rfl
  · omega
  · omega
  · exact isFinite_ofScientific hvalue

/-- A span is a finite number of seconds. -/
theorem isFinite_toSeconds (s : Span) : isFinite s.toSeconds = true := by
  refine isFinite_toDouble ?_ ?_ _
  · intro d hd
    obtain ⟨c, hc, rfl⟩ := List.mem_map.mp hd
    have hdigit := Text.toNat_of_isDigit (Text.isDigit_of_mem_toDigits hc)
    have hzero : '0'.toNat = 48 := rfl
    omega
  · rw [digitsOf, List.length_map]
    exact (Nat.length_toDigits_le_iff (by decide) (by decide)).mpr s.natAbs_micros_lt

end Log

end Stanza
