import Stanza.Proofs.Schema.Convert

/-! # The grammar of periods

A text spells a period by blocks, each a number in decimal digits of any script and a unit. The units stand in
their order, so none is there twice. A text is read if and only if it is spelled so, and it is in one way only.
-/
namespace Stanza.Period

open Text

structure Spelling where
  number : List Char
  unit : PeriodUnit
  deriving DecidableEq

namespace Spelling

def text (b : Spelling) : List Char := b.number ++ b.unit.symbol

def block (b : Spelling) : Block := ⟨b.number.filterMap digitValue?, b.unit⟩

def value (b : Spelling) : Nat := natOfDigits 10 b.block.digits

def Numbered (b : Spelling) : Prop := b.number ≠ [] ∧ ∀ c ∈ b.number, (digitValue? c).isSome = true

theorem Numbered.length_digits {b : Spelling} (h : b.Numbered) : b.block.digits.length = b.number.length :=
  List.filterMap_length_eq_length.mpr h.2

end Spelling

structure Spells (blocks : List Spelling) (cs : List Char) : Prop where
  text_eq : blocks.flatMap Spelling.text = cs
  numbered : ∀ b ∈ blocks, b.Numbered
  ordered : blocks.Pairwise (·.unit.rank < ·.unit.rank)

theorem Spells.nil : Spells [] [] := ⟨rfl, by simp, .nil⟩

theorem Spells.cons {b : Spelling} {blocks : List Spelling} {cs : List Char} (hb : b.Numbered)
    (hr : ∀ c ∈ blocks, b.unit.rank < c.unit.rank) (h : Spells blocks cs) :
    Spells (b :: blocks) (b.number ++ (b.unit.symbol ++ cs)) where
  text_eq := by rw [List.flatMap_cons, h.text_eq, Spelling.text, List.append_assoc]
  numbered := List.forall_mem_cons.mpr ⟨hb, h.numbered⟩
  ordered := .cons hr h.ordered

theorem Spells.of_cons {b : Spelling} {blocks : List Spelling} {cs : List Char} (h : Spells (b :: blocks) cs) :
    b.Numbered ∧ (∀ c ∈ blocks, b.unit.rank < c.unit.rank)
      ∧ ∃ rest, cs = b.number ++ (b.unit.symbol ++ rest) ∧ Spells blocks rest := by
  obtain ⟨hb, hnumbered⟩ := List.forall_mem_cons.mp h.numbered
  obtain ⟨hr, hordered⟩ := List.pairwise_cons.mp h.ordered
  refine ⟨hb, hr, _, ?_, rfl, hnumbered, hordered⟩
  rw [← h.text_eq, List.flatMap_cons, Spelling.text, List.append_assoc]

/-! ## Reading what is spelled -/

/-- What follows a unit is a number or nothing. -/
theorem Spells.ne_cons {blocks : List Spelling} {cs : List Char} (h : Spells blocks cs) {c : Char}
    (hc : digitValue? c = none) (rest : List Char) : cs ≠ c :: rest := by
  rintro rfl
  cases blocks with
  | nil => exact absurd h.text_eq (by simp)
  | cons b blocks =>
    obtain ⟨⟨hne, hdigits⟩, -, later, htext, -⟩ := h.of_cons
    obtain ⟨d, number, hnumber⟩ := List.exists_cons_of_ne_nil hne
    rw [hnumber, List.cons_append, List.cons.injEq] at htext
    have hd := hdigits d (hnumber ▸ List.mem_cons_self)
    rw [← htext.1, hc] at hd
    cases hd

theorem Spells.readBlocks?_eq {blocks : List Spelling} {cs : List Char} (h : Spells blocks cs) {rank : Nat}
    (hr : ∀ b ∈ blocks, rank ≤ b.unit.rank) : readBlocks? rank [] cs = some (blocks.map Spelling.block) := by
  induction blocks generalizing rank cs with
  | nil => rw [← h.text_eq, List.flatMap_nil, readBlocks?]; rfl
  | cons b blocks ih =>
    obtain ⟨hb, hlater, rest, rfl, hrest⟩ := h.of_cons
    have hdigits : b.block.digits.reverse ≠ [] := by
      rw [Ne, List.reverse_eq_nil_iff, ← List.length_eq_zero_iff, hb.length_digits, List.length_eq_zero_iff]
      exact hb.1
    have hs : ∀ later, rest ≠ 's' :: later := hrest.ne_cons (by decide)
    rw [readBlocks?_number hb.2, List.append_nil]
    change readBlocks? rank b.block.digits.reverse _ = _
    rw [readBlocks?_symbol b.unit (hr b List.mem_cons_self) hdigits hs, ih hrest hlater, List.reverse_reverse]
    rfl

/-! ## Spelling what is read -/

theorem symbol_of_unitOf? {c : Char} {u : PeriodUnit} (h : unitOf? c = some u) : u.symbol = [c] := by
  unfold unitOf? at h
  split at h <;> cases h <;> rfl

/-- The blocks from `rank` on that a text spells, and what is read from them. -/
structure SpellsFrom (rank : Nat) (blocks : List Spelling) (cs : List Char) (out : List Block) : Prop where
  spells : Spells blocks cs
  above : ∀ b ∈ blocks, rank ≤ b.unit.rank
  out_eq : out = blocks.map Spelling.block

theorem exists_spellsFrom_of_closeBlock? {rank : Nat} {number : List Char} {unit : PeriodUnit}
    {later : Option (List Block)} {rest : List Char} {out : List Block}
    (h : closeBlock? rank (number.filterMap digitValue?).reverse unit later = some out)
    (hn : ∀ c ∈ number, (digitValue? c).isSome = true)
    (hl : ∀ more, later = some more → ∃ blocks, SpellsFrom (unit.rank + 1) blocks rest more) :
    ∃ blocks, SpellsFrom rank blocks (number ++ (unit.symbol ++ rest)) out := by
  rw [closeBlock?] at h
  split at h
  · cases h
  · next hopen =>
    rw [Bool.or_eq_true, not_or, List.isEmpty_iff, decide_eq_true_eq, Nat.not_lt] at hopen
    obtain ⟨more, hmore, rfl⟩ := Option.map_eq_some_iff.mp h
    obtain ⟨blocks, hblocks⟩ := hl more hmore
    have hne : number ≠ [] := by
      rintro rfl
      exact hopen.1 rfl
    refine ⟨⟨number, unit⟩ :: blocks, .cons ⟨hne, hn⟩ hblocks.above hblocks.spells, ?_, ?_⟩
    · refine List.forall_mem_cons.mpr ⟨hopen.2, fun b hb => ?_⟩
      have hb := hblocks.above b hb
      omega
    · rw [List.reverse_reverse, hblocks.out_eq, List.map_cons]
      rfl

/-- `number` is the number begun, of which `digits` are the values. -/
theorem exists_spellsFrom {rank : Nat} {digits : List Nat} {cs : List Char} {out : List Block}
    (h : readBlocks? rank digits cs = some out) (number : List Char)
    (hn : ∀ c ∈ number, (digitValue? c).isSome = true) (hd : digits = (number.filterMap digitValue?).reverse) :
    ∃ blocks, SpellsFrom rank blocks (number ++ cs) out := by
  fun_induction readBlocks? rank digits cs generalizing out number with
  | case1 rank digits hempty =>
    cases h
    rw [List.isEmpty_iff, hd, List.reverse_eq_nil_iff, ← List.length_eq_zero_iff,
      List.filterMap_length_eq_length.mpr hn, List.length_eq_zero_iff] at hempty
    rw [hempty]
    exact ⟨[], .nil, by simp, rfl⟩
  | case2 => cases h
  | case3 rank digits rest ih =>
    exact exists_spellsFrom_of_closeBlock? (hd ▸ h) hn fun more hm => ih hm [] (by simp) rfl
  | case4 rank digits c rest hms d hv ih =>
    have hnumber : ∀ e ∈ number ++ [c], (digitValue? e).isSome = true := by
      intro e he
      rcases List.mem_append.mp he with he | he
      · exact hn e he
      · rw [List.mem_singleton.mp he, hv]
        rfl
    rw [List.append_cons]
    refine ih h _ hnumber ?_
    rw [List.filterMap_append, List.reverse_append, ← hd, List.filterMap_cons_some hv]
    rfl
  | case5 rank digits c rest hms unit hu hv ih =>
    have hclosed := exists_spellsFrom_of_closeBlock? (hd ▸ h) hn fun more hm => ih hm [] (by simp) rfl
    rwa [symbol_of_unitOf? hu] at hclosed
  | case6 => cases h

theorem readBlocks?_eq_some_iff {cs : List Char} {out : List Block} :
    readBlocks? 0 [] cs = some out ↔ ∃ blocks, Spells blocks cs ∧ out = blocks.map Spelling.block := by
  constructor
  · intro h
    obtain ⟨blocks, hblocks⟩ := exists_spellsFrom h [] (by simp) rfl
    exact ⟨blocks, hblocks.spells, hblocks.out_eq⟩
  · rintro ⟨blocks, hblocks, rfl⟩
    exact hblocks.readBlocks?_eq fun b _ => Nat.zero_le _

/-! ## One spelling only -/

theorem symbol_append_inj {u v : PeriodUnit} {rest rest' : List Char} (h : u.symbol ++ rest = v.symbol ++ rest')
    (hr : ∀ later, rest ≠ 's' :: later) (hr' : ∀ later, rest' ≠ 's' :: later) : u = v ∧ rest = rest' := by
  -- `m` and `ms` differ in what comes after the `m`
  cases u <;> cases v <;> grind [PeriodUnit.symbol]

theorem takeWhile_number {b : Spelling} (hb : b.Numbered) (rest : List Char) :
    (b.number ++ (b.unit.symbol ++ rest)).takeWhile (fun c => (digitValue? c).isSome) = b.number := by
  have hsymbol : (b.unit.symbol ++ rest).takeWhile (fun c => (digitValue? c).isSome) = [] := by
    cases b.unit <;> exact List.takeWhile_cons_of_neg (by decide)
  rw [List.takeWhile_append_of_pos hb.2, hsymbol, List.append_nil]

theorem Spells.unique {blocks blocks' : List Spelling} {cs : List Char} (h : Spells blocks cs)
    (h' : Spells blocks' cs) : blocks = blocks' := by
  induction blocks generalizing blocks' cs with
  | nil =>
    cases blocks' with
    | nil => rfl
    | cons b blocks' =>
      obtain ⟨hb, -, rest, htext, -⟩ := h'.of_cons
      rw [← h.text_eq, List.flatMap_nil, eq_comm, List.append_eq_nil_iff] at htext
      exact absurd htext.1 hb.1
  | cons b blocks ih =>
    obtain ⟨hb, -, rest, rfl, hrest⟩ := h.of_cons
    cases blocks' with
    | nil =>
      have hnil := h'.text_eq
      rw [List.flatMap_nil, eq_comm, List.append_eq_nil_iff] at hnil
      exact absurd hnil.1 hb.1
    | cons b' blocks' =>
      obtain ⟨hb', -, rest', htext, hrest'⟩ := h'.of_cons
      have hnumber : b.number = b'.number := by
        rw [← takeWhile_number hb rest, htext, takeWhile_number hb' rest']
      rw [hnumber, List.append_cancel_left_eq] at htext
      obtain ⟨hunit, rfl⟩ := symbol_append_inj htext (hrest.ne_cons (by decide)) (hrest'.ne_cons (by decide))
      have hblock : b = b' := by
        rcases b with ⟨number, unit⟩
        rcases b' with ⟨number', unit'⟩
        exact congr (congrArg Spelling.mk hnumber) hunit
      rw [hblock, ih hrest hrest']

/-! ## The fields -/

/-- The fields are the numbers of the blocks; units without a block are zero. -/
structure Holds (p : Period) (blocks : List Spelling) : Prop where
  given : ∀ b ∈ blocks, p.get b.unit = b.value
  absent : ∀ u, (∀ b ∈ blocks, b.unit ≠ u) → p.get u = 0

theorem readDigits_block {b : Spelling} (hb : b.Numbered) : readDigits b.block.digits
    = if digitLimit < b.number.length then .error (.reading b.number.length) else .ok b.value := by
  rw [readDigits, hb.length_digits]
  rfl

/-- Blocks are put into the fields one after the other, over what `q` has there. -/
theorem foldlM_spelled {blocks : List Spelling} (hnumbered : ∀ b ∈ blocks, b.Numbered)
    (hordered : blocks.Pairwise (·.unit.rank < ·.unit.rank)) (hshort : ∀ b ∈ blocks, b.number.length ≤ digitLimit)
    (q : Period) :
    ∃ p, (blocks.map Spelling.block).foldlM (fun p b => (p.set · b.unit) <$> readDigits b.digits) q = .ok p
      ∧ (∀ b ∈ blocks, p.get b.unit = b.value) ∧ ∀ u, (∀ b ∈ blocks, b.unit ≠ u) → p.get u = q.get u := by
  induction blocks generalizing q with
  | nil => exact ⟨q, rfl, by simp, fun u _ => rfl⟩
  | cons b blocks ih =>
    obtain ⟨hb, hnumbered⟩ := List.forall_mem_cons.mp hnumbered
    obtain ⟨hlater, hordered⟩ := List.pairwise_cons.mp hordered
    obtain ⟨hs, hshort⟩ := List.forall_mem_cons.mp hshort
    obtain ⟨p, hp, hgiven, habsent⟩ := ih hnumbered hordered hshort (q.set b.value b.unit)
    have hread : readDigits b.block.digits = .ok b.value := by
      rw [readDigits_block hb, if_neg (Nat.not_lt.mpr hs)]
    have hunit : ∀ c ∈ blocks, c.unit ≠ b.unit := by
      intro c hc heq
      have hrank := hlater c hc
      rw [heq] at hrank
      exact absurd hrank (Nat.lt_irrefl _)
    refine ⟨p, ?_, List.forall_mem_cons.mpr ⟨?_, hgiven⟩, ?_⟩
    · rw [List.map_cons, List.foldlM_cons, hread]
      exact hp
    · rw [habsent b.unit hunit, get_set, if_pos rfl]
    · intro u hu
      obtain ⟨hbu, hu⟩ := List.forall_mem_cons.mp hu
      rw [habsent u hu, get_set, if_neg hbu]

theorem exists_ofBlocks {blocks : List Spelling} {cs : List Char} (h : Spells blocks cs)
    (hshort : ∀ b ∈ blocks, b.number.length ≤ digitLimit) :
    ∃ p, ofBlocks (blocks.map Spelling.block) = .ok p ∧ p.Holds blocks := by
  obtain ⟨p, hp, hgiven, habsent⟩ := foldlM_spelled h.numbered h.ordered hshort {}
  exact ⟨p, hp, hgiven, fun u hu => by rw [habsent u hu]; cases u <;> rfl⟩

theorem foldlM_spelled_long {blocks : List Spelling} (hnumbered : ∀ b ∈ blocks, b.Numbered)
    (hlong : ∃ b ∈ blocks, digitLimit < b.number.length) (q : Period) :
    ∃ n, digitLimit < n ∧
      (blocks.map Spelling.block).foldlM (fun p b => (p.set · b.unit) <$> readDigits b.digits) q
        = .error (.reading n) := by
  induction blocks generalizing q with
  | nil => simp at hlong
  | cons b blocks ih =>
    obtain ⟨hb, hnumbered⟩ := List.forall_mem_cons.mp hnumbered
    rw [List.map_cons, List.foldlM_cons, readDigits_block hb]
    by_cases hl : digitLimit < b.number.length
    · rw [if_pos hl]
      exact ⟨_, hl, rfl⟩
    · rw [if_neg hl]
      obtain ⟨c, hc, hlong⟩ := hlong
      rcases List.mem_cons.mp hc with rfl | hc
      · exact absurd hlong hl
      · exact ih hnumbered ⟨c, hc, hlong⟩ _

/-! ## Texts -/

theorem read?_of_spells {blocks : List Spelling} {cs : List Char} (h : Spells blocks (trim cs)) (hne : blocks ≠ []) :
    read? cs = some (ofBlocks (blocks.map Spelling.block)) := by
  have hb : readBlocks? 0 [] (trim cs) = some (blocks.map Spelling.block) :=
    readBlocks?_eq_some_iff.mpr ⟨blocks, h, rfl⟩
  rw [read?, hb]
  split
  · next hnil => exact absurd (List.map_eq_nil_iff.mp (Option.some.inj hnil)) hne
  · next hnone => cases hnone
  · next out _ hsome => rw [Option.some.inj hsome]

theorem exists_spells_of_read? {cs : List Char} {r : Except DigitLimitError Period} (h : read? cs = some r) :
    ∃ blocks, blocks ≠ [] ∧ Spells blocks (trim cs) := by
  rw [read?] at h
  split at h
  · cases h
  · cases h
  · next out hne hout =>
    obtain ⟨blocks, hblocks, rfl⟩ := readBlocks?_eq_some_iff.mp hout
    refine ⟨blocks, ?_, hblocks⟩
    rintro rfl
    exact hne rfl

theorem writable_iff_get_lt {p : Period} : p.Writable ↔ ∀ u, p.get u < 10 ^ digitLimit := by
  refine forall_congr' fun u => ?_
  rw [Text.writable_iff, Int.natAbs_natCast]

end Stanza.Period

namespace Stanza.Schema

open Text Period

theorem period_of_spells {x : String} {blocks : List Spelling} (h : Spells blocks (trim x.toList)) (hne : blocks ≠ []) :
    period x = rejectedDigits (ofBlocks (blocks.map Spelling.block)) := by
  rw [period, read?_of_spells h hne]

theorem period_eq_ok_iff {x : String} {p : Period} : period x = .ok p ↔ read? x.toList = some (.ok p) := by
  rw [period]
  split
  · next r hr => rw [hr, rejectedDigits, Except.mapError_eq_ok_iff, Option.some.injEq]
  · next hnone => simp [hnone]

theorem exists_write_period {p : Period} (h : p.Writable) : ∃ s, p.write = .ok s ∧ period s = .ok p := by
  obtain ⟨s, hs, hread⟩ := exists_write_read? h
  exact ⟨s, hs, period_eq_ok_iff.mpr hread⟩

theorem exists_period_of_spells {x : String} {blocks : List Spelling} (h : Spells blocks (trim x.toList))
    (hne : blocks ≠ []) (hshort : ∀ b ∈ blocks, b.number.length ≤ digitLimit) :
    ∃ p, period x = .ok p ∧ p.Holds blocks := by
  obtain ⟨p, hp, hholds⟩ := exists_ofBlocks h hshort
  exact ⟨p, by rw [period_of_spells h hne, hp]; rfl, hholds⟩

theorem period_of_long {x : String} {blocks : List Spelling} (h : Spells blocks (trim x.toList))
    (hlong : ∃ b ∈ blocks, digitLimit < b.number.length) :
    ∃ n, digitLimit < n ∧ period x = .error (.digitLimit (.reading n)) := by
  have hne : blocks ≠ [] := by
    rintro rfl
    simp at hlong
  obtain ⟨n, hn, herror⟩ := foldlM_spelled_long h.numbered hlong {}
  exact ⟨n, hn, by rw [period_of_spells h hne, ofBlocks, herror]; rfl⟩

theorem exists_spells_of_period {x : String} {p : Period} (h : period x = .ok p) :
    ∃ blocks, blocks ≠ [] ∧ Spells blocks (trim x.toList) ∧ (∀ b ∈ blocks, b.number.length ≤ digitLimit)
      ∧ p.Holds blocks := by
  obtain ⟨blocks, hne, hblocks⟩ := exists_spells_of_read? (period_eq_ok_iff.mp h)
  have hshort : ∀ b ∈ blocks, b.number.length ≤ digitLimit := by
    intro b hb
    by_contra hlong
    obtain ⟨n, -, herror⟩ := period_of_long hblocks ⟨b, hb, Nat.not_le.mp hlong⟩
    rw [h] at herror
    cases herror
  obtain ⟨q, hq, hholds⟩ := exists_period_of_spells hblocks hne hshort
  rw [h] at hq
  cases hq
  exact ⟨blocks, hne, hblocks, hshort, hholds⟩

theorem period_of_not_spells {x : String} (h : ¬ ∃ blocks, blocks ≠ [] ∧ Spells blocks (trim x.toList)) :
    period x = .error (.notPeriod (literal x)) := by
  rw [period]
  split
  · next r hr => exact absurd (exists_spells_of_read? hr) h
  · rfl

/-- What is written of two periods is the same only if they are. -/
theorem eq_of_write_eq {p q : Period} (hp : p.Writable) (h : q.write = p.write) (hq : q.Writable) : p = q := by
  obtain ⟨s, hs, hread⟩ := exists_write_period hp
  obtain ⟨t, ht, hread'⟩ := exists_write_period hq
  rw [hs, ht] at h
  cases h
  rw [hread] at hread'
  exact Except.ok.inj hread'

/-- A text is a period if and only if, blanks around it aside, it spells one with numbers short enough to read.
There is one spelling, and it gives the fields. What is written of a period is read as that period, so it is the
same for two texts if and only if they are the same period. -/
theorem period_grammar (x : String) :
    ((∃ p, period x = .ok p) ↔ ∃ blocks, blocks ≠ [] ∧ Spells blocks (trim x.toList)
        ∧ ∀ b ∈ blocks, b.number.length ≤ digitLimit)
      ∧ (∀ p blocks, period x = .ok p → Spells blocks (trim x.toList) → p.Holds blocks)
      ∧ (∀ blocks blocks', Spells blocks (trim x.toList) → Spells blocks' (trim x.toList) → blocks = blocks')
      ∧ ((¬ ∃ blocks, blocks ≠ [] ∧ Spells blocks (trim x.toList)) → period x = .error (.notPeriod (literal x)))
      ∧ (∀ blocks, Spells blocks (trim x.toList) → (∃ b ∈ blocks, digitLimit < b.number.length) →
        ∃ n, digitLimit < n ∧ period x = .error (.digitLimit (.reading n)))
      ∧ (∀ p : Period, (∀ u, p.get u < 10 ^ digitLimit) → ∃ s, p.write = .ok s ∧ period s = .ok p)
      ∧ ∀ p, period x = .ok p → ∃ s, p.write = .ok s ∧ period s = .ok p
        ∧ ∀ y q, period y = .ok q → (q.write = .ok s ↔ p = q) := by
  refine ⟨⟨?_, ?_⟩, ?_, fun blocks blocks' h h' => h.unique h', period_of_not_spells,
    fun blocks => period_of_long, fun p hp => exists_write_period (writable_iff_get_lt.mpr hp), ?_⟩
  · rintro ⟨p, hp⟩
    obtain ⟨blocks, hne, hblocks, hshort, -⟩ := exists_spells_of_period hp
    exact ⟨blocks, hne, hblocks, hshort⟩
  · rintro ⟨blocks, hne, hblocks, hshort⟩
    obtain ⟨p, hp, -⟩ := exists_period_of_spells hblocks hne hshort
    exact ⟨p, hp⟩
  · intro p blocks hp hblocks
    obtain ⟨blocks', -, hblocks', -, hholds⟩ := exists_spells_of_period hp
    rwa [hblocks.unique hblocks']
  · intro p hp
    obtain ⟨s, hs, hread⟩ := exists_write_period (period_writable hp)
    refine ⟨s, hs, hread, fun y q hq => ⟨fun hw => ?_, fun heq => heq ▸ hs⟩⟩
    exact eq_of_write_eq (period_writable hp) (hw.trans hs.symm) (period_writable hq)

/-- An `m` before an `s`, a zero in front and a digit of another script. -/
theorem period_grammar_minute_millis :
    Spells [⟨['1'], .minutes⟩, ⟨['0', '５'], .millis⟩] (trim " 1m0５ms\n".toList)
      ∧ period " 1m0５ms\n" = .ok { minutes := 1, millis := 5 }
      ∧ ∃ s, Period.write { minutes := 1, millis := 5 } = .ok s ∧ period s = .ok { minutes := 1, millis := 5 }
        ∧ ∀ y q, period y = .ok q → (q.write = .ok s ↔ { minutes := 1, millis := 5 } = q) := by
  have hminute : Spelling.Numbered ⟨['1'], .minutes⟩ :=
    ⟨by decide, List.forall_mem_singleton.mpr (by decide)⟩
  have hmillis : Spelling.Numbered ⟨['0', '５'], .millis⟩ :=
    ⟨by decide, List.forall_mem_cons.mpr ⟨by decide, List.forall_mem_singleton.mpr (by decide)⟩⟩
  have hspells : Spells [⟨['1'], .minutes⟩, ⟨['0', '５'], .millis⟩] (trim " 1m0５ms\n".toList) :=
    ⟨by decide, List.forall_mem_cons.mpr ⟨hminute, List.forall_mem_singleton.mpr hmillis⟩, by decide⟩
  obtain ⟨hiff, hfields, -, -, -, -, hwritten⟩ := period_grammar " 1m0５ms\n"
  obtain ⟨p, hp⟩ := hiff.mpr ⟨_, by decide, hspells, by decide⟩
  have hholds := hfields p _ hp hspells
  have heq : p = { minutes := 1, millis := 5 } := by
    rcases p with ⟨d, h, m, s, ms⟩
    obtain rfl : d = 0 := hholds.absent .days (by decide)
    obtain rfl : h = 0 := hholds.absent .hours (by decide)
    obtain rfl : m = 1 := hholds.given ⟨['1'], .minutes⟩ (by decide)
    obtain rfl : s = 0 := hholds.absent .seconds (by decide)
    obtain rfl : ms = 5 := hholds.given ⟨['0', '５'], .millis⟩ (by decide)
    rfl
  rw [heq] at hp
  exact ⟨hspells, hp, hwritten _ hp⟩

end Stanza.Schema
