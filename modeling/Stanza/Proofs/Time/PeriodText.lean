import Stanza.Proofs.Text.Integer
import Stanza.Time.PeriodText

/-! # Periods written and read back

The blocks of a period are written unit by unit, and zero units not at all. Reading goes through the same
units in the same order, so a period whose fields are short enough to be written is read back as it was.
-/
namespace Stanza.Period

open Text

def Writable (p : Period) : Prop := ∀ u, Text.Writable (p.get u)

def digitsOf (n : Nat) : List Nat := (Nat.toDigits 10 n).map (·.toNat - 48)

def blockText (p : Period) (u : PeriodUnit) : List Char :=
  if p.get u = 0 then [] else Nat.toDigits 10 (p.get u) ++ u.symbol

def block? (p : Period) (u : PeriodUnit) : Option Block :=
  if p.get u = 0 then none else some ⟨digitsOf (p.get u), u⟩

theorem writeBlock_eq {p : Period} (h : p.Writable) (u : PeriodUnit) : writeBlock p u = .ok (blockText p u) := by
  have hn : decimal (p.get u) = Nat.toDigits 10 (p.get u) := by
    rw [decimal, if_neg (by omega), Int.natAbs_natCast]
  rw [writeBlock, blockText]
  split
  · next hz => rw [if_pos hz]
  · next hz =>
    rw [if_neg hz, writeInteger_of_writable (h u), hn, Except.map_eq_ok_iff]
    exact ⟨_, rfl, by rw [String.toList_ofList]⟩

theorem write_eq {p : Period} (h : p.Writable) :
    p.write = .ok (match PeriodUnit.all.flatMap (blockText p) with
      | [] => "0s"
      | cs => String.ofList cs) := by
  rw [write, Except.mapM_eq_ok_of_forall fun u _ => writeBlock_eq h u]
  rfl

/-! ## Reading blocks -/

theorem readBlocks?_number {cs : List Char} (h : ∀ c ∈ cs, (digitValue? c).isSome = true) (rank : Nat)
    (digits : List Nat) (rest : List Char) :
    readBlocks? rank digits (cs ++ rest) = readBlocks? rank ((cs.filterMap digitValue?).reverse ++ digits) rest := by
  induction cs generalizing digits with
  | nil => rfl
  | cons c cs ih =>
    obtain ⟨hc, hcs⟩ := List.forall_mem_cons.mp h
    obtain ⟨d, hd⟩ := Option.isSome_iff_exists.mp hc
    rw [List.cons_append, readBlocks?.eq_3]
    · simp only [hd]
      rw [ih hcs, List.filterMap_cons_some hd, List.reverse_cons, List.append_assoc, List.singleton_append]
    · rintro _ rfl
      exact absurd hc (by decide)

theorem readBlocks?_digits {cs : List Char} (h : ∀ c ∈ cs, c.isDigit = true) (rank : Nat) (digits : List Nat)
    (rest : List Char) :
    readBlocks? rank digits (cs ++ rest) = readBlocks? rank ((cs.map (·.toNat - 48)).reverse ++ digits) rest := by
  have hvalue : ∀ c ∈ cs, digitValue? c = some (c.toNat - 48) := fun c hc => digitValue?_of_isDigit (h c hc)
  rw [readBlocks?_number fun c hc => by rw [hvalue c hc]; rfl, List.filterMap_eq_map_iff_forall_eq_some.mpr hvalue]

/-- `m` stands for minutes unless an `s` follows. -/
theorem readBlocks?_symbol (u : PeriodUnit) {rank : Nat} (hr : rank ≤ u.rank) {digits : List Nat}
    (hd : digits ≠ []) {rest : List Char} (h : ∀ later, rest ≠ 's' :: later) :
    readBlocks? rank digits (u.symbol ++ rest)
      = (⟨digits.reverse, u⟩ :: ·) <$> readBlocks? (u.rank + 1) [] rest := by
  have hclose : ∀ later, closeBlock? rank digits u later = (⟨digits.reverse, u⟩ :: ·) <$> later := by
    intro later
    rw [closeBlock?, if_neg]
    simp [hd, hr]
  cases u with
  | minutes =>
    change readBlocks? rank digits ('m' :: rest) = _
    rw [readBlocks?.eq_3 _ _ _ _ fun later _ => h later]
    exact hclose _
  | _ => exact hclose _

theorem flatMap_blockText_ne (p : Period) (us : List PeriodUnit) (later : List Char) :
    us.flatMap (blockText p) ≠ 's' :: later := by
  induction us with
  | nil => simp
  | cons u us ih =>
    rw [List.flatMap_cons, blockText]
    split
    · exact ih
    · intro h
      cases hd : Nat.toDigits 10 (p.get u) with
      | nil => exact Nat.toDigits_ne_nil hd
      | cons c cs =>
        rw [hd, List.cons_append, List.cons_append, List.cons.injEq] at h
        have hc : c.isDigit = true := isDigit_of_mem_toDigits (hd ▸ List.mem_cons_self)
        rw [h.1] at hc
        exact absurd hc (by decide)

/-- Units in their order are read one after the other. -/
theorem readBlocks?_flatMap (p : Period) (us : List PeriodUnit) (hs : us.Pairwise (·.rank < ·.rank)) (rank : Nat)
    (hr : ∀ u ∈ us, rank ≤ u.rank) :
    readBlocks? rank [] (us.flatMap (blockText p)) = some (us.filterMap (block? p)) := by
  induction us generalizing rank with
  | nil => rw [List.flatMap_nil, readBlocks?]; rfl
  | cons u us ih =>
    obtain ⟨hu, hs⟩ := List.pairwise_cons.mp hs
    rw [List.flatMap_cons, blockText, List.filterMap_cons, block?]
    by_cases hz : p.get u = 0
    · rw [if_pos hz, if_pos hz]
      exact ih hs rank fun v hv => hr v (List.mem_cons_of_mem _ hv)
    · rw [if_neg hz, if_neg hz, List.append_assoc, readBlocks?_digits fun c hc => isDigit_of_mem_toDigits hc,
        List.append_nil, readBlocks?_symbol u (hr u List.mem_cons_self) (by simp) (flatMap_blockText_ne p us),
        ih hs (u.rank + 1) hu, List.reverse_reverse]
      rfl

/-! ## Setting fields -/

theorem set_get (q : Period) (u : PeriodUnit) : q.set (q.get u) u = q := by
  cases u <;> rfl

theorem get_set (q : Period) (n : Nat) (u v : PeriodUnit) : (q.set n u).get v = if u = v then n else q.get v := by
  cases u <;> cases v <;> rfl

/-- Fields that are still zero take their values from the blocks of `p`. -/
theorem foldlM_block? {p : Period} (h : p.Writable) {us : List PeriodUnit} (hn : us.Nodup) {q : Period}
    (hq : ∀ u ∈ us, q.get u = 0) :
    (us.filterMap (block? p)).foldlM (fun q b => (q.set · b.unit) <$> readDigits b.digits) q
      = .ok (us.foldl (fun q u => q.set (p.get u) u) q) := by
  induction us generalizing q with
  | nil => rfl
  | cons u us ih =>
    obtain ⟨hu, hn⟩ := List.nodup_cons.mp hn
    have hrest : ∀ v ∈ us, (q.set (p.get u) u).get v = 0 := fun v hv => by
      rw [get_set, if_neg (by rintro rfl; exact hu hv), hq v (List.mem_cons_of_mem _ hv)]
    rw [List.filterMap_cons, block?, List.foldl_cons, ← ih hn hrest]
    by_cases hz : p.get u = 0
    · rw [if_pos hz, hz, ← hq u List.mem_cons_self, set_get]
    · rw [if_neg hz]
      simp only [List.foldlM_cons, digitsOf, readDigits_toDigits (h u)]
      rfl

theorem ofBlocks_block? {p : Period} (h : p.Writable) : ofBlocks (PeriodUnit.all.filterMap (block? p)) = .ok p :=
  foldlM_block? h (by decide) (by decide)

/-! ## The text as a whole -/

theorem isBlank_of_mem_blockText {p : Period} {u : PeriodUnit} {c : Char} (h : c ∈ blockText p u) :
    isBlank c = false := by
  rw [blockText] at h
  split at h
  · cases h
  · rcases List.mem_append.mp h with h | h
    · exact isBlank_of_isDigit (isDigit_of_mem_toDigits h)
    · have hs : (u.symbol.all fun c => !isBlank c) = true := by cases u <;> decide
      simpa using List.all_eq_true.mp hs c h

theorem read?_flatMap {p : Period} (h : p.Writable) (hne : PeriodUnit.all.flatMap (blockText p) ≠ []) :
    read? (PeriodUnit.all.flatMap (blockText p)) = some (.ok p) := by
  have ht : trim (PeriodUnit.all.flatMap (blockText p)) = PeriodUnit.all.flatMap (blockText p) :=
    trim_of_forall fun c hc => by
      obtain ⟨u, _, hc⟩ := List.mem_flatMap.mp hc
      exact isBlank_of_mem_blockText hc
  have hb := readBlocks?_flatMap p PeriodUnit.all (by decide) 0 (by simp)
  have hblocks : PeriodUnit.all.filterMap (block? p) ≠ [] := by
    intro hnil
    refine hne (List.flatMap_eq_nil_iff.mpr fun u hu => ?_)
    have hu := List.filterMap_eq_nil_iff.mp hnil u hu
    rw [block?] at hu
    rw [blockText]
    split at hu
    · next hz => rw [if_pos hz]
    · cases hu
  rw [read?, ht, hb]
  split
  · next hnil => exact absurd (Option.some.inj hnil) hblocks
  · next hnone => cases hnone
  · next blocks _ hsome => rw [← Option.some.inj hsome, ofBlocks_block? h]

theorem eq_zero_of_flatMap {p : Period} (h : PeriodUnit.all.flatMap (blockText p) = []) : p = {} := by
  have hz : ∀ u ∈ PeriodUnit.all, p.get u = 0 := fun u hu => by
    have hb := List.flatMap_eq_nil_iff.mp h u hu
    rw [blockText] at hb
    split at hb
    · assumption
    · exact absurd (List.append_eq_nil_iff.mp hb).1 Nat.toDigits_ne_nil
  rcases p with ⟨d, hh, m, s, ms⟩
  simp only [PeriodUnit.all, List.forall_mem_cons, get] at hz
  obtain ⟨rfl, rfl, rfl, rfl, rfl, -⟩ := hz
  rfl

/-- A written period is read back. -/
theorem exists_write_read? {p : Period} (h : p.Writable) :
    ∃ s, p.write = .ok s ∧ read? s.toList = some (.ok p) := by
  refine ⟨_, write_eq h, ?_⟩
  split
  · next hnil =>
    rw [eq_zero_of_flatMap hnil]
    have hread : readBlocks? 0 [] ['0', 's'] = some [⟨[0], .seconds⟩] := by
      rw [show ['0', 's'] = ['0'] ++ (PeriodUnit.seconds.symbol ++ []) from rfl,
        readBlocks?_digits (List.forall_mem_singleton.mpr (by decide)),
        readBlocks?_symbol .seconds (by decide) (by decide) (by simp), readBlocks?]
      rfl
    have ht : trim "0s".toList = ['0', 's'] := by decide
    rw [read?, ht, hread]
    rfl
  · next hne =>
    rw [String.toList_ofList]
    exact read?_flatMap h hne

/-! ## What was read can be written -/

theorem digits_lt_of_closeBlock? {rank : Nat} {digits : List Nat} {unit : PeriodUnit} {later : Option (List Block)}
    {blocks : List Block} (h : closeBlock? rank digits unit later = some blocks) (hd : ∀ d ∈ digits, d < 10)
    (hl : ∀ more, later = some more → ∀ b ∈ more, ∀ d ∈ b.digits, d < 10) : ∀ b ∈ blocks, ∀ d ∈ b.digits, d < 10 := by
  rw [closeBlock?] at h
  split at h
  · cases h
  · obtain ⟨more, hmore, rfl⟩ := Option.map_eq_some_iff.mp h
    intro b hb
    rcases List.mem_cons.mp hb with rfl | hb
    · simpa using hd
    · exact hl more hmore b hb

theorem digits_lt_of_readBlocks? {rank : Nat} {digits : List Nat} {cs : List Char} {blocks : List Block}
    (h : readBlocks? rank digits cs = some blocks) (hd : ∀ d ∈ digits, d < 10) :
    ∀ b ∈ blocks, ∀ d ∈ b.digits, d < 10 := by
  fun_induction readBlocks? rank digits cs generalizing blocks with
  | case1 => cases h; simp
  | case2 => cases h
  | case3 rank digits rest ih => exact digits_lt_of_closeBlock? h hd fun more hm => ih hm (by simp)
  | case4 rank digits c rest hms d hv ih =>
    refine ih h fun e he => ?_
    rcases List.mem_cons.mp he with rfl | he
    · exact digitValue?_lt hv
    · exact hd e he
  | case5 rank digits c rest hms hv unit hu ih => exact digits_lt_of_closeBlock? h hd fun more hm => ih hm (by simp)
  | case6 => cases h

theorem writable_of_ofBlocks {blocks : List Block} {p : Period} (h : ofBlocks blocks = .ok p)
    (hd : ∀ b ∈ blocks, ∀ d ∈ b.digits, d < 10) : p.Writable := by
  suffices H : ∀ q : Period, q.Writable →
      blocks.foldlM (fun q b => (q.set · b.unit) <$> readDigits b.digits) q = .ok p → p.Writable from
    H {} (by intro u; cases u <;> decide) h
  clear h
  intro q hq h
  induction blocks generalizing q with
  | nil => cases h; exact hq
  | cons b blocks ih =>
    rw [List.foldlM_cons] at h
    obtain ⟨r, hr, h⟩ := Except.bind_eq_ok_iff.mp h
    obtain ⟨n, hn, rfl⟩ := Except.map_eq_ok_iff.mp hr
    refine ih (fun b hb => hd b (List.mem_cons_of_mem _ hb)) _ (fun u => ?_) h
    rw [get_set]
    split
    · exact writable_of_readDigits hn (hd b List.mem_cons_self)
    · exact hq u

theorem writable_of_read? {cs : List Char} {p : Period} (h : read? cs = some (.ok p)) : p.Writable := by
  rw [read?] at h
  split at h
  · cases h
  · cases h
  · next blocks _ hb => exact writable_of_ofBlocks (Option.some.inj h) (digits_lt_of_readBlocks? hb (by simp))

end Stanza.Period
