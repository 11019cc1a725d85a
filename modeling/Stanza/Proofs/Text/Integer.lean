import Mathlib.Algebra.Group.Nat.Defs
import Mathlib.Data.List.DropRight
import Stanza.Proofs.Logged
import Stanza.Proofs.Text.Blank
import Stanza.Text.Integer

/-! # Integers written and read back

An integer that is short enough to be written has a decimal text, and reading that text gives the integer.
-/
namespace Stanza.Text

def Writable (n : Int) : Prop := (Nat.toDigits 10 n.natAbs).length ≤ digitLimit

instance (n : Int) : Decidable (Writable n) := inferInstanceAs (Decidable (_ ≤ _))

theorem writable_iff {n : Int} : Writable n ↔ n.natAbs < 10 ^ digitLimit :=
  Nat.length_toDigits_le_iff (by decide) (by decide)

theorem Writable.of_le {m n : Int} (h : Writable n) (hle : m.natAbs ≤ n.natAbs) : Writable m :=
  writable_iff.mpr (hle.trans_lt (writable_iff.mp h))

def decimal (n : Int) : List Char :=
  if n < 0 then '-' :: Nat.toDigits 10 n.natAbs else Nat.toDigits 10 n.natAbs

theorem writeInteger_of_writable {n : Int} (h : Writable n) :
    writeInteger n = .ok (String.ofList (decimal n)) := by
  have hlength : (toString n.natAbs).length = (Nat.toDigits 10 n.natAbs).length := by
    rw [Nat.toString_eq_ofList_toDigits, String.length_ofList]
  have hshort : ¬ digitLimit < (toString n.natAbs).length := by
    rw [hlength]
    exact Nat.not_lt.mpr h
  rw [writeInteger, if_neg hshort, decimal]
  split
  · rw [Nat.toString_eq_ofList_toDigits]
    refine congrArg Except.ok (String.toList_inj.mp ?_)
    simp
  · rw [Nat.toString_eq_ofList_toDigits]

/-! ## Digits -/

theorem toNat_of_isDigit {c : Char} (h : c.isDigit = true) : 48 ≤ c.toNat ∧ c.toNat ≤ 57 := by
  simpa [Char.isDigit, ← Char.toNat_val, UInt32.le_iff_toNat_le] using h

theorem digitValue?_of_isDigit {c : Char} (h : c.isDigit = true) : digitValue? c = some (c.toNat - 48) := by
  have hb := toNat_of_isDigit h
  have hf : digitZeros.find? (fun z => z ≤ c.toNat && c.toNat < z + 10) = some 48 :=
    List.find?_cons_of_pos (by simp only [Bool.and_eq_true, decide_eq_true_eq]; omega)
  rw [digitValue?, hf]
  rfl

theorem isBlank_of_isDigit {c : Char} (h : c.isDigit = true) : isBlank c = false := by
  have hb := toNat_of_isDigit h
  simp only [isBlank, Ranges.contains, blankRanges, List.any_cons, List.any_nil, Bool.or_eq_false_iff,
    Bool.and_eq_false_iff, decide_eq_false_iff_not, and_true]
  omega

theorem isDigit_of_mem_toDigits {n : Nat} {c : Char} (h : c ∈ Nat.toDigits 10 n) : c.isDigit = true :=
  Nat.isDigit_of_mem_toDigits (by decide) (by decide) h

theorem mapM_digitValue? {cs : List Char} (h : ∀ c ∈ cs, c.isDigit = true) :
    cs.mapM digitValue? = some (cs.map (·.toNat - 48)) := by
  induction cs with
  | nil => rfl
  | cons c cs ih =>
    rw [List.mapM_cons, digitValue?_of_isDigit (h c List.mem_cons_self),
      ih fun d hd => h d (List.mem_cons_of_mem _ hd)]
    rfl

theorem natOfDigits_map (cs : List Char) : natOfDigits 10 (cs.map (·.toNat - 48)) = Nat.ofDigitChars 10 cs 0 := by
  rw [natOfDigits, List.foldl_map, Nat.ofDigitChars_eq_foldl]
  simp only [Nat.mul_comm]
  rfl

/-- The digits of a number are read as that number. -/
theorem readDigits_toDigits {n : Nat} (h : Writable n) :
    readDigits ((Nat.toDigits 10 n).map (·.toNat - 48)) = .ok n := by
  have hshort : ¬ digitLimit < ((Nat.toDigits 10 n).map (·.toNat - 48)).length := by
    rw [List.length_map]
    exact Nat.not_lt.mpr h
  rw [readDigits, if_neg hshort, natOfDigits_map, Nat.ofDigitChars_ten_toDigits]

theorem allDigits?_toDigits (n : Nat) :
    allDigits? (Nat.toDigits 10 n) = some ((Nat.toDigits 10 n).map (·.toNat - 48)) := by
  rw [allDigits?, if_neg (by simp), mapM_digitValue? fun c hc => isDigit_of_mem_toDigits hc]

theorem digitValue?_lt {c : Char} {d : Nat} (h : digitValue? c = some d) : d < 10 := by
  obtain ⟨z, hz, rfl⟩ := Option.map_eq_some_iff.mp h
  have hb := List.find?_some hz
  simp only [Bool.and_eq_true, decide_eq_true_eq] at hb
  omega

theorem digit_lt_of_allDigits? {cs : List Char} {ds : List Nat} (h : allDigits? cs = some ds) : ∀ d ∈ ds, d < 10 := by
  rw [allDigits?] at h
  split at h
  · cases h
  · induction cs generalizing ds with
    | nil => cases h; simp
    | cons c cs ih =>
      rw [List.mapM_cons] at h
      obtain ⟨d, hd, h⟩ := Option.bind_eq_some_iff.mp h
      obtain ⟨rest, hrest, h⟩ := Option.bind_eq_some_iff.mp h
      cases h
      intro e he
      rcases List.mem_cons.mp he with rfl | he
      · exact digitValue?_lt hd
      · cases cs with
        | nil => cases hrest; cases he
        | cons _ _ => exact ih (by simp) hrest e he

theorem natOfDigits_lt {ds : List Nat} (h : ∀ d ∈ ds, d < 10) : natOfDigits 10 ds < 10 ^ ds.length := by
  induction ds using List.reverseRecOn with
  | nil => decide
  | append_singleton ds d ih =>
    have hr := ih fun e he => h e (List.mem_append_left _ he)
    have hd := h d (by simp)
    rw [natOfDigits] at hr
    rw [natOfDigits, List.foldl_append, List.length_append, List.length_singleton, Nat.pow_succ]
    simp only [List.foldl_cons, List.foldl_nil]
    omega

theorem writable_of_readDigits {ds : List Nat} {m : Nat} (h : readDigits ds = .ok m) (hd : ∀ d ∈ ds, d < 10) :
    Writable m := by
  rw [readDigits] at h
  split at h
  · cases h
  · next hl =>
    cases h
    rw [writable_iff, Int.natAbs_natCast]
    exact (natOfDigits_lt hd).trans_le (Nat.pow_le_pow_right (by decide) (Nat.not_lt.mp hl))

/-! ## Signs -/

theorem splitSign_toDigits (n : Nat) : splitSign (Nat.toDigits 10 n) = (false, Nat.toDigits 10 n) := by
  cases hd : Nat.toDigits 10 n with
  | nil => rfl
  | cons c cs =>
    have hc : c.isDigit = true := isDigit_of_mem_toDigits (hd ▸ List.mem_cons_self)
    unfold splitSign
    split
    · next h => cases h; exact absurd hc (by decide)
    · next h => cases h; exact absurd hc (by decide)
    · rfl

theorem splitSign_decimal (n : Int) : splitSign (decimal n) = (decide (n < 0), Nat.toDigits 10 n.natAbs) := by
  by_cases h : n < 0
  · rw [decimal, if_pos h, decide_eq_true h]
    rfl
  · rw [decimal, if_neg h, decide_eq_false h, splitSign_toDigits]

theorem signed_natAbs (n : Int) : signed (decide (n < 0)) n.natAbs = n := by
  by_cases h : n < 0
  · rw [decide_eq_true h]
    simp only [signed, ↓reduceIte]
    omega
  · rw [decide_eq_false h]
    simp only [signed, Bool.false_eq_true, ↓reduceIte]
    omega

theorem isBlank_of_mem_decimal {n : Int} {c : Char} (h : c ∈ decimal n) : isBlank c = false := by
  have hd : ∀ d ∈ Nat.toDigits 10 n.natAbs, isBlank d = false := fun d hd =>
    isBlank_of_isDigit (isDigit_of_mem_toDigits hd)
  rw [decimal] at h
  split at h
  · rcases List.mem_cons.mp h with rfl | h
    · decide
    · exact hd c h
  · exact hd c h

/-- A written integer is read back. -/
theorem readInteger?_decimal {n : Int} (h : Writable n) : readInteger? (decimal n) = some (.ok n) := by
  have hr : readDigits ((Nat.toDigits 10 n.natAbs).map (·.toNat - 48)) = .ok n.natAbs :=
    readDigits_toDigits (by rwa [Writable, Int.natAbs_natCast])
  rw [readInteger?, trim_of_forall fun c hc => isBlank_of_mem_decimal hc, splitSign_decimal]
  simp only [allDigits?_toDigits, Option.map_some, hr]
  exact congrArg (fun k => some (Except.ok k)) (signed_natAbs n)

/-- An integer that was read can be written. -/
theorem writable_of_readInteger? {cs : List Char} {n : Int} (h : readInteger? cs = some (.ok n)) : Writable n := by
  obtain ⟨ds, hds, hn⟩ := Option.map_eq_some_iff.mp h
  obtain ⟨m, hm, rfl⟩ := Except.map_eq_ok_iff.mp hn
  have hw : Writable m := writable_of_readDigits hm (digit_lt_of_allDigits? hds)
  exact hw.of_le (by rw [signed]; split <;> omega)

end Stanza.Text
