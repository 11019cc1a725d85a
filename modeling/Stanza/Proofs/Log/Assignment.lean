import Mathlib.Data.List.Forall2
import Mathlib.Data.List.TakeWhile
import Stanza.Log.Redaction
import Stanza.Proofs.Logged

/-! # Texts without their secrets

In a text, a key that names a secret may be given a value, after a colon or an equals sign. Redaction puts a mark in the
place of each such value and of the blanks before it. No match arises by this, since what is before a key and what
follows a value stay as they were. So a text without its secrets has the mark wherever the pattern still matches, and
the texts of which this is true are those that redaction leaves alone.
-/
namespace Stanza

namespace Text

def Ranges.codes (table : Ranges) : List Nat := table.flatMap fun (lo, hi) => List.range' lo (hi - lo + 1)

theorem Ranges.mem_codes_of_contains {table : Ranges} {c : Char} (h : table.contains c = true) : c.toNat ∈ table.codes := by
  obtain ⟨⟨lo, hi⟩, hmem, hc⟩ := List.any_eq_true.mp h
  rw [Bool.and_eq_true, decide_eq_true_eq, decide_eq_true_eq] at hc
  exact List.mem_flatMap.mpr ⟨_, hmem, List.mem_range'_1.mpr (by omega)⟩

theorem isWordChar_of_isBlank {c : Char} (h : isBlank c = true) : isWordChar c = false := by
  have hcodes : ∀ n ∈ blankRanges.codes, isWordChar (Char.ofNat n) = false := by decide +kernel
  rw [← Char.ofNat_toNat c]
  exact hcodes _ (Ranges.mem_codes_of_contains h)

/-- Every character is among those with its small letter. -/
theorem mem_simpleLowerSources (n : Nat) : n ∈ simpleLowerSources (simpleLowerCode n) := by
  rw [simpleLowerSources]
  cases hfind : caseRuns.find? (·.covers n) with
  | none =>
    have hsmall : simpleLowerCode n = n := by rw [simpleLowerCode, hfind]
    rw [hsmall, hsmall, if_pos (beq_self_eq_true n)]
    exact List.mem_cons_self
  | some r =>
    have hr := List.mem_of_find?_eq_some hfind
    have hcovers : r.covers n = true := List.find?_some (p := fun r : CaseRun => r.covers n) hfind
    have hsmall : (n + r.shift).toNat = simpleLowerCode n := by rw [simpleLowerCode, hfind]
    have hcode : ((simpleLowerCode n : Int) - r.shift).toNat = n := by
      have hshift : ∀ r ∈ caseRuns, 0 ≤ r.first + r.shift := by decide +kernel
      have hfirst : r.first ≤ n := by simp_all [CaseRun.covers]
      have := hshift r hr
      omega
    have hcapital : n ∈ caseRuns.filterMap fun r =>
        let m := ((simpleLowerCode n : Int) - r.shift).toNat
        if r.covers m && ((m : Int) + r.shift).toNat == simpleLowerCode n then some m else none := by
      refine List.mem_filterMap.mpr ⟨r, hr, ?_⟩
      simp [hcode, hcovers, hsmall]
    split
    · exact List.mem_cons_of_mem _ hcapital
    · exact hcapital

theorem simpleLower_eq (c : Char) : simpleLower c = Char.ofNat (simpleLowerCode c.toNat) := by
  have hascii : ∀ n ∈ List.range 0x80, (Char.ofNat n).toLower = Char.ofNat (simpleLowerCode n) := by decide +kernel
  rw [simpleLower]
  split
  · next h => simpa only [Char.ofNat_toNat] using hascii _ (List.mem_range.mpr h)
  · rfl

/-- What is a letter from a to z when case is ignored is a word character. -/
theorem isWordChar_of_equalIgnoringCase {letter c : Char} (hletter : letter.toNat ∈ List.range' 0x61 26)
    (h : equalIgnoringCase letter c = true) : isWordChar c = true := by
  have hfamily : ∀ l ∈ List.range' 0x61 26, ∀ n ∈ caseFamily (simpleLower (Char.ofNat l)).toNat,
      n ≠ 0 ∧ ∀ m ∈ simpleLowerSources n, isWordChar (Char.ofNat m) = true := by decide +kernel
  have hmem : (simpleLower c).toNat ∈ caseFamily (simpleLower (Char.ofNat letter.toNat)).toNat := by
    rw [Char.ofNat_toNat]
    exact List.contains_iff_mem.mp h
  obtain ⟨hne, hsources⟩ := hfamily _ hletter _ hmem
  have hcode : (simpleLower c).toNat = simpleLowerCode c.toNat := by
    rw [simpleLower_eq] at hne ⊢
    by_cases hvalid : (simpleLowerCode c.toNat).isValidChar
    · rw [Char.ofNat, dif_pos hvalid]
      rfl
    · rw [Char.ofNat, dif_neg hvalid] at hne
      exact absurd rfl hne
  rw [← Char.ofNat_toNat c]
  exact hsources _ (hcode ▸ mem_simpleLowerSources c.toNat)

end Text

namespace Log

open Text

/-! ## Characters -/

theorem isKeyChar_of_isBlank {c : Char} (h : isBlank c = true) : isKeyChar c = false := by
  rw [isKeyChar, isWordChar_of_isBlank h, Bool.or_false, beq_eq_false_iff_ne]
  rintro rfl
  exact absurd h (by decide)

theorem isSecretChar_iff {c : Char} : isSecretChar c = true ↔ isBlank c = false ∧ c ≠ ',' ∧ c ≠ ';' := by
  simp [isSecretChar, and_assoc]

theorem isBlank_of_isSecretChar {c : Char} (h : isSecretChar c = true) : isBlank c = false := (isSecretChar_iff.mp h).1

theorem isWordChar_of_isKeyChar {c : Char} (h : isKeyChar c = true) (hc : c ≠ '-') : isWordChar c = true := by
  rw [isKeyChar, Bool.or_eq_true] at h
  exact h.resolve_left (by simpa using hc)

theorem not_isWordChar_of_not_isKeyChar {c : Char} (h : isKeyChar c = false) : isWordChar c = false := by
  rw [isKeyChar, Bool.or_eq_false_iff] at h
  exact h.2

theorem isKeyChar_sign {sign : Char} (h : sign = ':' ∨ sign = '=') : isKeyChar sign = false := by
  rcases h with rfl | rfl <;> decide

theorem isBlank_sign {sign : Char} (h : sign = ':' ∨ sign = '=') : isBlank sign = false := by
  rcases h with rfl | rfl <;> decide

/-! ## Runs of characters -/

def Stops (p : Char → Bool) (cs : List Char) : Prop := ∀ c ∈ cs.head?, p c = false

section

variable {p : Char → Bool} {c : Char} {xs ys : List Char}

theorem stops_cons : Stops p (c :: xs) ↔ p c = false := by
  simp [Stops]

theorem stops_dropWhile (p : Char → Bool) (xs : List Char) : Stops p (xs.dropWhile p) := by
  intro c hc
  have hstop := List.head?_dropWhile_not p xs
  rwa [Option.mem_def.mp hc] at hstop

theorem Stops.dropWhile_eq (hy : Stops p ys) : ys.dropWhile p = ys := by
  cases ys with
  | nil => rfl
  | cons y ys => exact List.dropWhile_cons_of_neg (by rw [stops_cons.mp hy]; decide)

theorem Stops.takeWhile_eq (hy : Stops p ys) : ys.takeWhile p = [] := by
  cases ys with
  | nil => rfl
  | cons y ys => exact List.takeWhile_cons_of_neg (by rw [stops_cons.mp hy]; decide)

theorem Stops.dropWhile_append (hy : Stops p ys) (hx : ∀ c ∈ xs, p c = true) : (xs ++ ys).dropWhile p = ys := by
  rw [List.dropWhile_append_of_pos hx, hy.dropWhile_eq]

theorem Stops.takeWhile_append (hy : Stops p ys) (hx : ∀ c ∈ xs, p c = true) : (xs ++ ys).takeWhile p = xs := by
  rw [List.takeWhile_append_of_pos hx, hy.takeWhile_eq, List.append_nil]

theorem Stops.append_inj {xs' ys' : List Char} (hy : Stops p ys) (hy' : Stops p ys') (hx : ∀ c ∈ xs, p c = true)
    (hx' : ∀ c ∈ xs', p c = true) (h : xs ++ ys = xs' ++ ys') : xs = xs' ∧ ys = ys' := by
  constructor
  · rw [← hy.takeWhile_append hx, h, hy'.takeWhile_append hx']
  · rw [← hy.dropWhile_append hx, h, hy'.dropWhile_append hx']

theorem stops_append (hne : xs ≠ []) (hx : ∀ c ∈ xs, p c = false) : Stops p (xs ++ ys) := by
  obtain ⟨x, xs, rfl⟩ := List.exists_cons_of_ne_nil hne
  exact stops_cons.mpr (hx x List.mem_cons_self)

end

/-! ## Keys and what they are given -/

/-- What follows a key that is given a value: a colon or an equals sign with blanks around it, and a value that goes on
up to a blank, a comma or a semicolon. -/
@[ext]
structure Given where
  gap : List Char
  sign : Char
  pad : List Char
  value : List Char
  after : List Char
  gap_blank : ∀ c ∈ gap, isBlank c = true
  sign_eq : sign = ':' ∨ sign = '='
  pad_blank : ∀ c ∈ pad, isBlank c = true
  value_ne_nil : value ≠ []
  value_chars : ∀ c ∈ value, isSecretChar c = true
  value_ends : Stops isSecretChar after

namespace Given

def text (g : Given) : List Char := g.gap ++ g.sign :: (g.pad ++ (g.value ++ g.after))

variable (g : Given)

theorem stops_isBlank_value : Stops isBlank (g.value ++ g.after) :=
  stops_append g.value_ne_nil fun c hc => isBlank_of_isSecretChar (g.value_chars c hc)

theorem stops_isBlank_sign : Stops isBlank (g.sign :: (g.pad ++ (g.value ++ g.after))) :=
  stops_cons.mpr (isBlank_sign g.sign_eq)

theorem dropWhile_text : g.text.dropWhile isBlank = g.sign :: (g.pad ++ (g.value ++ g.after)) :=
  g.stops_isBlank_sign.dropWhile_append g.gap_blank

theorem assignment?_text : assignment? g.text = some (g.sign, g.after) := by
  have hsign : (g.sign == ':' || g.sign == '=') = true := by simpa using g.sign_eq
  rw [assignment?, g.dropWhile_text]
  simp only [g.stops_isBlank_value.dropWhile_append g.pad_blank, g.value_ends.takeWhile_append g.value_chars,
    g.value_ends.dropWhile_append g.value_chars, hsign, Bool.true_and]
  rw [if_pos (by simpa using g.value_ne_nil)]

/-- What is given is told from the text. -/
theorem eq_of_text_eq {g h : Given} (heq : g.text = h.text) : g = h := by
  obtain ⟨hgap, hdrop⟩ := g.stops_isBlank_sign.append_inj h.stops_isBlank_sign g.gap_blank h.gap_blank heq
  obtain ⟨hsign, hrest⟩ := List.cons.inj hdrop
  obtain ⟨hpad, hvalues⟩ := g.stops_isBlank_value.append_inj h.stops_isBlank_value g.pad_blank h.pad_blank hrest
  obtain ⟨hvalue, hafter⟩ := g.value_ends.append_inj h.value_ends g.value_chars h.value_chars hvalues
  exact Given.ext hgap hsign hpad hvalue hafter

theorem stops_isKeyChar : Stops isKeyChar g.text := by
  rw [text]
  cases hgap : g.gap with
  | nil => exact stops_cons.mpr (isKeyChar_sign g.sign_eq)
  | cons c cs => exact stops_cons.mpr (isKeyChar_of_isBlank (g.gap_blank c (hgap ▸ List.mem_cons_self)))

end Given

/-- A value is found where one is given. -/
theorem exists_given {cs left : List Char} {sign : Char} (h : assignment? cs = some (sign, left)) :
    ∃ g : Given, g.text = cs ∧ g.sign = sign ∧ g.after = left := by
  rw [assignment?] at h
  split at h
  · next s rest hdrop =>
    simp only [Option.ite_none_right_eq_some, Bool.and_eq_true, Bool.or_eq_true, beq_iff_eq, Bool.not_eq_true',
      List.isEmpty_eq_false_iff, Option.some.injEq, Prod.mk.injEq] at h
    obtain ⟨⟨hsign, hvalue⟩, rfl, rfl⟩ := h
    refine ⟨⟨cs.takeWhile isBlank, s, rest.takeWhile isBlank, (rest.dropWhile isBlank).takeWhile isSecretChar,
      (rest.dropWhile isBlank).dropWhile isSecretChar, fun _ => List.mem_takeWhile_imp, hsign,
      fun _ => List.mem_takeWhile_imp, hvalue, fun _ => List.mem_takeWhile_imp, stops_dropWhile _ _⟩, ?_, rfl, rfl⟩
    rw [Given.text, List.takeWhile_append_dropWhile, List.takeWhile_append_dropWhile, ← hdrop,
      List.takeWhile_append_dropWhile]
  · cases h

def EndsInTerm (key : List Char) : Prop := ∃ term ∈ assignedTerms, ∃ stem last, key = stem ++ last
  ∧ List.Forall₂ (fun letter c => equalIgnoringCase letter c = true) term.toList last

theorem all_zip_iff {f : Char × Char → Bool} {xs ys : List Char} :
    (decide (xs.length ≤ ys.length) && (xs.zip ys).all f) = true ↔
      ∃ first rest, ys = first ++ rest ∧ List.Forall₂ (fun x y => f (x, y) = true) xs first := by
  induction xs generalizing ys with
  | nil => simp
  | cons x xs ih =>
    cases ys with
    | nil => simp
    | cons y ys =>
      have hstep : (decide ((x :: xs).length ≤ (y :: ys).length) && ((x :: xs).zip (y :: ys)).all f) = true ↔
          f (x, y) = true ∧ (decide (xs.length ≤ ys.length) && (xs.zip ys).all f) = true := by
        simp only [List.length_cons, Nat.add_le_add_iff_right, List.zip_cons_cons, List.all_cons, Bool.and_eq_true]
        exact and_left_comm
      rw [hstep, ih]
      constructor
      · rintro ⟨hxy, first, rest, rfl, h⟩
        exact ⟨y :: first, rest, rfl, .cons hxy h⟩
      · rintro ⟨first, rest, heq, h⟩
        cases h with
        | cons hxy h =>
          obtain ⟨rfl, rfl⟩ := List.cons.inj heq
          exact ⟨hxy, _, rest, rfl, h⟩

theorem namesSecret_iff {run : List Char} : namesSecret run = true ↔ EndsInTerm run := by
  rw [namesSecret, List.any_eq_true]
  refine exists_congr fun term => and_congr_right fun _ => ?_
  have hlength : run.length = run.reverse.length := List.length_reverse.symm
  rw [hlength]
  refine all_zip_iff.trans ⟨?_, ?_⟩
  · rintro ⟨first, rest, heq, h⟩
    refine ⟨rest.reverse, first.reverse, ?_, by simpa using List.rel_reverse h⟩
    rw [← List.reverse_append, ← heq, List.reverse_reverse]
  · rintro ⟨stem, last, rfl, h⟩
    exact ⟨last.reverse, stem.reverse, List.reverse_append, List.rel_reverse h⟩

theorem EndsInTerm.append {key : List Char} (h : EndsInTerm key) (before : List Char) : EndsInTerm (before ++ key) := by
  obtain ⟨term, hterm, stem, last, rfl, hlast⟩ := h
  exact ⟨term, hterm, before ++ stem, last, (List.append_assoc _ _ _).symm, hlast⟩

theorem EndsInTerm.ne_nil {key : List Char} (h : EndsInTerm key) : key ≠ [] := by
  obtain ⟨term, hterm, stem, last, rfl, hlast⟩ := h
  have hterms : ∀ t ∈ assignedTerms, t.toList ≠ [] := by decide
  intro hnil
  rw [(List.append_eq_nil_iff.mp hnil).2, List.forall₂_nil_right_iff] at hlast
  exact hterms term hterm hlast

theorem isWordChar_of_term {term : String} {last : List Char} (hterm : term ∈ assignedTerms)
    (h : List.Forall₂ (fun letter c => equalIgnoringCase letter c = true) term.toList last) :
    ∀ c ∈ last, isWordChar c = true := by
  have hletters : (assignedTerms.all fun t => t.toList.all fun l => decide (l.toNat ∈ List.range' 0x61 26)) = true := by
    decide +kernel
  intro c hc
  obtain ⟨letter, hl, hequal⟩ := h.exists_of_mem_right hc
  exact isWordChar_of_equalIgnoringCase
    (of_decide_eq_true (List.all_eq_true.mp (List.all_eq_true.mp hletters term hterm) letter hl)) hequal

theorem EndsInTerm.ends_word {key : List Char} (h : EndsInTerm key) : key.getLast?.any isWordChar = true := by
  obtain ⟨term, hterm, stem, last, rfl, hlast⟩ := h
  have hlastNe : last ≠ [] := EndsInTerm.ne_nil ⟨term, hterm, [], last, rfl, hlast⟩
  rw [List.getLast?_append_of_ne_nil _ hlastNe, List.getLast?_eq_some_getLast hlastNe]
  exact isWordChar_of_term hterm hlast _ (List.getLast_mem hlastNe)

theorem EndsInTerm.dropWhile_dash {key : List Char} (h : EndsInTerm key) : EndsInTerm (key.dropWhile (· == '-')) := by
  obtain ⟨term, hterm, stem, last, rfl, hlast⟩ := h
  have hdash : Stops (· == '-') last := by
    intro c hc
    have hword := isWordChar_of_term hterm hlast c (List.mem_of_mem_head? hc)
    rw [beq_eq_false_iff_ne]
    rintro rfl
    exact absurd hword (by decide)
  refine ⟨term, hterm, stem.dropWhile (· == '-'), last, ?_, hlast⟩
  rw [List.dropWhile_append]
  split
  · next hstem => rw [hdash.dropWhile_eq, List.isEmpty_iff.mp hstem, List.nil_append]
  · rfl

def wordBoundary (before after : List Char) : Bool :=
  before.getLast?.any isWordChar != after.head?.any isWordChar

/-- A match of the pattern in a text: a key from the start of a word on that ends, where a word ends, in a term for a
secret, and what it is given. -/
structure Assignment where
  before : List Char
  key : List Char
  given : Given
  opens : wordBoundary before key = true
  key_chars : ∀ c ∈ key, isKeyChar c = true
  key_secret : EndsInTerm key
  closes : wordBoundary key given.text = true

def Assignment.text (a : Assignment) : List Char := a.before ++ (a.key ++ a.given.text)

/-- A run of key characters that ends in a term for a secret and is given a value is matched, dashes at its start apart. -/
theorem exists_assignment {before run : List Char} (hbefore : ∀ c ∈ before.getLast?, isKeyChar c = false)
    (hrun : ∀ c ∈ run, isKeyChar c = true) (hsecret : EndsInTerm run) (g : Given) :
    ∃ a : Assignment, a.text = before ++ (run ++ g.text) ∧ a.given = g := by
  have hkey := hsecret.dropWhile_dash
  have hbeforeWord : (before ++ run.takeWhile (· == '-')).getLast?.any isWordChar = false := by
    rw [Option.any_eq_false]
    intro c hc
    rcases List.eq_nil_or_concat' (run.takeWhile (· == '-')) with hnil | ⟨dashes, dash, hdashes⟩
    · rw [hnil, List.append_nil] at hc
      exact not_isWordChar_of_not_isKeyChar (hbefore c hc)
    · rw [hdashes, ← List.append_assoc, List.getLast?_concat] at hc
      have hdash : (dash == '-') = true := List.mem_takeWhile_imp (p := (· == '-')) (hdashes ▸ List.mem_concat_self)
      obtain rfl := Option.some.inj hc
      rw [beq_iff_eq.mp hdash]
      decide
  have hkeyWord : (run.dropWhile (· == '-')).head?.any isWordChar = true := by
    obtain ⟨c, rest, hcons⟩ := List.exists_cons_of_ne_nil hkey.ne_nil
    have hdash : (c == '-') = false := stops_cons (p := (· == '-')).mp (hcons ▸ stops_dropWhile (· == '-') run)
    have hc : c ∈ run := (List.dropWhile_sublist _).mem (hcons ▸ List.mem_cons_self)
    rw [hcons]
    exact isWordChar_of_isKeyChar (hrun c hc) (by simpa using hdash)
  have hafter : g.text.head?.any isWordChar = false := by
    rw [Option.any_eq_false]
    exact fun c hc => not_isWordChar_of_not_isKeyChar (g.stops_isKeyChar c hc)
  refine ⟨⟨before ++ run.takeWhile (· == '-'), run.dropWhile (· == '-'), g, ?_, ?_, hkey, ?_⟩, ?_, rfl⟩
  · rw [wordBoundary, hkeyWord, hbeforeWord]
    rfl
  · exact fun c hc => hrun c ((List.dropWhile_sublist _).mem hc)
  · rw [wordBoundary, hkey.ends_word, hafter]
    rfl
  · rw [Assignment.text, List.append_assoc, ← List.append_assoc (run.takeWhile _), List.takeWhile_append_dropWhile]

/-! ## Redaction run by run -/

def redactAfter (run after : List Char) : List Char :=
  match (if namesSecret run then assignment? after else none) with
  | some (sign, left) => sign :: (mark.toList ++ redactChars left)
  | none => redactChars after

theorem redactChars_nil : redactChars [] = [] := by
  rw [redactChars]

theorem redactChars_cons {c : Char} (hc : isKeyChar c = false) (rest : List Char) :
    redactChars (c :: rest) = c :: redactChars rest := by
  rw [redactChars, if_neg (by rw [hc]; decide)]

theorem redactChars_append {run after : List Char} (hne : run ≠ []) (hrun : ∀ c ∈ run, isKeyChar c = true)
    (hafter : Stops isKeyChar after) : redactChars (run ++ after) = run ++ redactAfter run after := by
  obtain ⟨c, cs, rfl⟩ := List.exists_cons_of_ne_nil hne
  obtain ⟨hc, hcs⟩ := List.forall_mem_cons.mp hrun
  have htake : (c :: (cs ++ after)).takeWhile isKeyChar = c :: cs := hafter.takeWhile_append hrun
  have hdrop : (cs ++ after).dropWhile isKeyChar = after := hafter.dropWhile_append hcs
  rw [List.cons_append, redactChars, if_pos hc]
  simp only [htake, hdrop, redactAfter]
  split
  · next sign left hname hleft =>
    rw [hdrop] at hleft
    rw [hname, if_pos rfl, hleft, List.append_assoc]
    rfl
  · next hnot =>
    rw [hdrop] at hnot
    cases hname : namesSecret (c :: cs) with
    | false => rfl
    | true =>
      cases hleft : assignment? after with
      | none => rfl
      | some found => exact absurd hleft (hnot found.1 found.2 hname)

/-- A text is empty, or starts with a character of no key or with a run of key characters, after which redaction goes on
behind the value that the run is given, if any. -/
@[elab_as_elim]
theorem redactChars_induction {motive : List Char → Prop} (nil : motive [])
    (other : ∀ c rest, isKeyChar c = false → motive rest → motive (c :: rest))
    (run : ∀ run after, run ≠ [] → (∀ c ∈ run, isKeyChar c = true) → Stops isKeyChar after → motive after →
      (∀ g : Given, g.text = after → motive g.after) → motive (run ++ after))
    (cs : List Char) : motive cs := by
  induction hn : cs.length using Nat.strongRecOn generalizing cs with
  | _ n ih =>
    subst hn
    cases cs with
    | nil => exact nil
    | cons c rest =>
      by_cases hc : isKeyChar c = true
      · have hafter := length_dropWhile_le isKeyChar rest
        have hsplit : c :: rest.takeWhile isKeyChar ++ rest.dropWhile isKeyChar = c :: rest := by
          rw [List.cons_append, List.takeWhile_append_dropWhile]
        rw [← hsplit]
        refine run _ _ (List.cons_ne_nil _ _) ?_ (stops_dropWhile _ _) ?_ ?_
        · exact List.forall_mem_cons.mpr ⟨hc, fun d hd => List.mem_takeWhile_imp hd⟩
        · exact ih _ (by rw [List.length_cons]; omega) _ rfl
        · intro g hg
          have hlen := assignment?_length (hg ▸ g.assignment?_text)
          exact ih _ (by rw [List.length_cons]; omega) _ rfl
      · exact other c rest (by simpa using hc) (ih _ (by simp) rest rfl)

/-- A text starts as it did. -/
theorem head?_redactChars (cs : List Char) : (redactChars cs).head? = cs.head? := by
  cases cs using redactChars_induction with
  | nil => rw [redactChars_nil]
  | other c rest hc _ => rw [redactChars_cons hc, List.head?_cons, List.head?_cons]
  | run run after hne hrun hafter _ _ =>
    rw [redactChars_append hne hrun hafter, List.head?_append_of_ne_nil _ hne, List.head?_append_of_ne_nil _ hne]

theorem Stops.redactChars {p : Char → Bool} {cs : List Char} (h : Stops p cs) : Stops p (redactChars cs) := by
  rwa [Stops, head?_redactChars]

/-- What is of no key at the start is left as it is. -/
theorem exists_of_redactChars_eq_append {xs ys cs : List Char} (hx : ∀ c ∈ xs, isKeyChar c = false)
    (h : redactChars cs = xs ++ ys) : ∃ rest, cs = xs ++ rest ∧ redactChars rest = ys := by
  induction xs generalizing cs with
  | nil => exact ⟨cs, rfl, h⟩
  | cons x xs ih =>
    obtain ⟨hhead, htail⟩ := List.forall_mem_cons.mp hx
    have hstart := head?_redactChars cs
    rw [h, List.cons_append, List.head?_cons] at hstart
    obtain ⟨rest, rfl⟩ := List.head?_eq_some_iff.mp hstart.symm
    rw [redactChars_cons hhead, List.cons_append] at h
    obtain ⟨after, rfl, hafter⟩ := ih htail (List.cons.inj h).2
    exact ⟨after, rfl, hafter⟩

/-- What was given no value is given none. -/
theorem exists_given_of_redactChars {cs : List Char} {g : Given} (h : g.text = redactChars cs) : ∃ g' : Given, g'.text = cs := by
  have hother : ∀ c ∈ g.gap ++ g.sign :: g.pad, isKeyChar c = false := by
    intro c hc
    rcases List.mem_append.mp hc with hc | hc
    · exact isKeyChar_of_isBlank (g.gap_blank c hc)
    · rcases List.mem_cons.mp hc with rfl | hc
      · exact isKeyChar_sign g.sign_eq
      · exact isKeyChar_of_isBlank (g.pad_blank c hc)
  have htext : redactChars cs = (g.gap ++ g.sign :: g.pad) ++ (g.value ++ g.after) := by
    rw [← h, Given.text, List.append_assoc, List.cons_append]
  obtain ⟨rest, rfl, hrest⟩ := exists_of_redactChars_eq_append hother htext
  have hvalue : rest.takeWhile isSecretChar ≠ [] := by
    have hhead := head?_redactChars rest
    obtain ⟨c, value, hcons⟩ := List.exists_cons_of_ne_nil g.value_ne_nil
    rw [hrest, hcons, List.cons_append, List.head?_cons] at hhead
    obtain ⟨others, rfl⟩ := List.head?_eq_some_iff.mp hhead.symm
    rw [List.takeWhile_cons_of_pos (g.value_chars c (hcons ▸ List.mem_cons_self))]
    exact List.cons_ne_nil _ _
  refine ⟨⟨g.gap, g.sign, g.pad, rest.takeWhile isSecretChar, rest.dropWhile isSecretChar, g.gap_blank, g.sign_eq,
    g.pad_blank, hvalue, fun _ => List.mem_takeWhile_imp, stops_dropWhile _ _⟩, ?_⟩
  rw [Given.text, List.takeWhile_append_dropWhile, List.append_assoc, List.cons_append]

/-! ## Values that are hidden -/

theorem mark_chars : ∀ c ∈ mark.toList, isSecretChar c = true ∧ c ≠ ':' ∧ c ≠ '=' := by
  have hall : (mark.toList.all fun c => isSecretChar c && c != ':' && c != '=') = true := by decide
  simpa [and_assoc] using List.all_eq_true.mp hall

theorem mark_ends (sign : Char) : ∀ c ∈ (sign :: mark.toList).getLast?, isKeyChar c = false := by
  have hstar : mark.toList.getLast? = some '*' := by decide
  rw [List.getLast?_cons_of_ne_nil (by decide), hstar]
  rintro _ ⟨⟩
  decide

structure Given.Marked (g : Given) : Prop where
  gap : g.gap = []
  pad : g.pad = []
  value : g.value = mark.toList

theorem Given.Marked.text_eq {g : Given} (h : g.Marked) : g.text = g.sign :: (mark.toList ++ g.after) := by
  rw [Given.text, h.gap, h.pad, h.value]
  rfl

def Given.redacted (g : Given) : Given where
  gap := []
  sign := g.sign
  pad := []
  value := mark.toList
  after := redactChars g.after
  gap_blank := fun _ hc => absurd hc List.not_mem_nil
  sign_eq := g.sign_eq
  pad_blank := fun _ hc => absurd hc List.not_mem_nil
  value_ne_nil := by decide
  value_chars := fun c hc => (mark_chars c hc).1
  value_ends := g.value_ends.redactChars

theorem Given.marked_redacted (g : Given) : g.redacted.Marked := ⟨rfl, rfl, rfl⟩

theorem redactAfter_text {run : List Char} (h : namesSecret run = true) (g : Given) :
    redactAfter run g.text = g.redacted.text := by
  rw [redactAfter, if_pos h, g.assignment?_text]
  rfl

theorem redactAfter_of_not_given {run after : List Char} (h : namesSecret run = true → ∀ g : Given, g.text ≠ after) :
    redactAfter run after = redactChars after := by
  rw [redactAfter]
  split
  · next sign left hfound =>
    rw [Option.ite_none_right_eq_some] at hfound
    obtain ⟨g, hg, -, -⟩ := exists_given hfound.2
    exact absurd hg (h hfound.1 g)
  · rfl

/-- Nothing is left to redact. -/
theorem redactChars_redactChars (cs : List Char) : redactChars (redactChars cs) = redactChars cs := by
  induction cs using redactChars_induction with
  | nil => rw [redactChars_nil, redactChars_nil]
  | other c rest hc ih => rw [redactChars_cons hc, redactChars_cons hc, ih]
  | run run after hne hrun hafter ih ihleft =>
    rw [redactChars_append hne hrun hafter]
    by_cases hgiven : namesSecret run = true ∧ ∃ g : Given, g.text = after
    · obtain ⟨hname, g, rfl⟩ := hgiven
      rw [redactAfter_text hname, redactChars_append hne hrun g.redacted.stops_isKeyChar, redactAfter_text hname]
      have hleft : g.redacted.redacted.text = g.redacted.text :=
        congrArg (fun left => g.sign :: (mark.toList ++ left)) (ihleft g rfl)
      rw [hleft]
    · have hnot : namesSecret run = true → ∀ g : Given, g.text ≠ after := fun hname g hg => hgiven ⟨hname, g, hg⟩
      have hnone : namesSecret run = true → ∀ g : Given, g.text ≠ redactChars after := by
        intro hname g hg
        obtain ⟨g', hg'⟩ := exists_given_of_redactChars hg
        exact hnot hname g' hg'
      rw [redactAfter_of_not_given hnot, redactChars_append hne hrun hafter.redactChars, redactAfter_of_not_given hnone, ih]

/-- A key is on one side of a character that is of no key. -/
theorem key_before_or_after {front back before key rest : List Char} (h : front ++ back = before ++ (key ++ rest))
    (hkey : ∀ c ∈ key, isKeyChar c = true) (hne : key ≠ [])
    (hbar : Stops isKeyChar back ∨ ∀ c ∈ front.getLast?, isKeyChar c = false) :
    (∃ mid, front = before ++ (key ++ mid) ∧ rest = mid ++ back) ∨ ∃ before', back = before' ++ (key ++ rest) := by
  rcases List.append_eq_append_iff.mp h with ⟨between, -, hback⟩ | ⟨start, rfl, hkeyrest⟩
  · exact .inr ⟨between, hback⟩
  rcases List.append_eq_append_iff.mp hkeyrest with ⟨mid, rfl, rfl⟩ | ⟨tail, rfl, rfl⟩
  · exact .inl ⟨mid, rfl, rfl⟩
  rcases List.eq_nil_or_concat' start with rfl | ⟨start, last, rfl⟩
  · exact .inr ⟨[], rfl⟩
  cases tail with
  | nil => exact .inl ⟨[], by simp, rfl⟩
  | cons c tail =>
    -- the key would go over from one side to the other
    exfalso
    rcases hbar with hbar | hbar
    · have hc := hkey c (by simp)
      rw [stops_cons.mp hbar] at hc
      cases hc
    · have hlast := hkey last (by simp)
      rw [hbar last (by simp)] at hlast
      cases hlast

/-- A key in a run ends the run if it is given a value. -/
theorem eq_nil_of_given {run before key mid back : List Char} {g : Given} (hrun : ∀ c ∈ run, isKeyChar c = true)
    (hfront : run = before ++ (key ++ mid)) (hrest : g.text = mid ++ back) : mid = [] := by
  cases mid with
  | nil => rfl
  | cons m mid =>
    have hstop : Stops isKeyChar (m :: mid ++ back) := hrest ▸ g.stops_isKeyChar
    have hm := hrun m (by rw [hfront]; simp)
    rw [stops_cons.mp hstop] at hm
    cases hm

/-- No key that is given a value ends in the mark. -/
theorem not_given_in_mark {sign : Char} {before key mid back : List Char} {g : Given}
    (hfront : sign :: mark.toList = before ++ (key ++ mid)) (hrest : g.text = mid ++ back)
    (hkey : ∀ c ∈ key, isKeyChar c = true) (hne : key ≠ []) : False := by
  cases mid with
  | nil =>
    obtain ⟨start, last, rfl⟩ := (List.eq_nil_or_concat' key).resolve_left hne
    have hstar : '*' = last := by simpa [mark] using congrArg List.getLast? hfront
    have hlast := hkey last (by simp)
    rw [← hstar] at hlast
    exact absurd hlast (by decide)
  | cons m mid =>
    obtain ⟨c, rest, hcons⟩ := List.exists_cons_of_ne_nil (List.append_ne_nil_of_right_ne_nil before hne)
    rw [← List.append_assoc, hcons, List.cons_append] at hfront
    have hm : m ∈ mark.toList := by
      rw [(List.cons.inj hfront).2]
      simp
    obtain ⟨hsecret, hcolon, hequals⟩ := mark_chars m hm
    have hdrop := g.dropWhile_text
    rw [hrest, List.cons_append, List.dropWhile_cons_of_neg (by rw [isBlank_of_isSecretChar hsecret]; decide)] at hdrop
    have hsign : m = g.sign := (List.cons.inj hdrop).1
    rcases g.sign_eq with hs | hs
    · exact hcolon (hsign.trans hs)
    · exact hequals (hsign.trans hs)

/-- Wherever a key is given a value in a text without its secrets, the value is the mark. -/
theorem marked_of_redactChars {cs before key : List Char} {g : Given} (h : redactChars cs = before ++ (key ++ g.text))
    (hkey : ∀ c ∈ key, isKeyChar c = true) (hsecret : EndsInTerm key) : g.Marked := by
  induction cs using redactChars_induction generalizing before with
  | nil =>
    rw [redactChars_nil, eq_comm, List.append_eq_nil_iff, List.append_eq_nil_iff] at h
    exact absurd h.2.1 hsecret.ne_nil
  | other c rest hc ih =>
    rw [redactChars_cons hc, ← List.singleton_append] at h
    rcases key_before_or_after h hkey hsecret.ne_nil (.inr (by simpa using hc)) with ⟨mid, hfront, -⟩ | ⟨before', hback⟩
    · obtain ⟨k, ks, rfl⟩ := List.exists_cons_of_ne_nil hsecret.ne_nil
      have hk : k = c := by
        refine List.mem_singleton.mp ?_
        rw [hfront]
        simp
      rw [← hk, hkey k List.mem_cons_self] at hc
      cases hc
    · exact ih hback
  | run run after hne hrun hafter ih ihleft =>
    -- the key is in the run, in the mark or in what is redacted after it
    rw [redactChars_append hne hrun hafter] at h
    by_cases hgiven : namesSecret run = true ∧ ∃ g : Given, g.text = after
    · obtain ⟨hname, given, rfl⟩ := hgiven
      rw [redactAfter_text hname] at h
      rcases key_before_or_after h hkey hsecret.ne_nil (.inl given.redacted.stops_isKeyChar)
        with ⟨mid, hfront, hrest⟩ | ⟨before', hback⟩
      · obtain rfl := eq_nil_of_given hrun hfront hrest
        exact Given.eq_of_text_eq hrest ▸ given.marked_redacted
      · have hmark : given.redacted.text = (given.sign :: mark.toList) ++ redactChars given.after := rfl
        rw [hmark] at hback
        rcases key_before_or_after hback hkey hsecret.ne_nil (.inr (mark_ends given.sign)) with ⟨mid, hfront, hrest⟩ | ⟨_, hleft⟩
        · exact (not_given_in_mark hfront hrest hkey hsecret.ne_nil).elim
        · exact ihleft given rfl hleft
    · have hnot : namesSecret run = true → ∀ g : Given, g.text ≠ after := fun hname g hg => hgiven ⟨hname, g, hg⟩
      rw [redactAfter_of_not_given hnot] at h
      rcases key_before_or_after h hkey hsecret.ne_nil (.inl hafter.redactChars) with ⟨mid, hfront, hrest⟩ | ⟨before', hback⟩
      · obtain rfl := eq_nil_of_given hrun hfront hrest
        obtain ⟨g', hg'⟩ := exists_given_of_redactChars hrest
        rw [List.append_nil] at hfront
        exact absurd hg' (hnot (namesSecret_iff.mpr (hfront ▸ hsecret.append before)) g')
      · exact ih hback

/-- What has the mark wherever the pattern matches is left as it is. -/
theorem redactChars_of_marked {cs : List Char} (before : List Char)
    (hbar : Stops isKeyChar cs ∨ ∀ c ∈ before.getLast?, isKeyChar c = false)
    (h : ∀ a : Assignment, a.text = before ++ cs → a.given.Marked) : redactChars cs = cs := by
  induction cs using redactChars_induction generalizing before with
  | nil => exact redactChars_nil
  | other c rest hc ih =>
    rw [redactChars_cons hc, ih (before ++ [c]) (.inr (by simpa using hc)) (by simpa using h)]
  | run run after hne hrun hafter ih ihleft =>
    rw [redactChars_append hne hrun hafter]
    by_cases hgiven : namesSecret run = true ∧ ∃ g : Given, g.text = after
    · obtain ⟨hname, g, rfl⟩ := hgiven
      have hbefore : ∀ c ∈ before.getLast?, isKeyChar c = false := by
        refine hbar.resolve_left fun hstop => ?_
        obtain ⟨c, rest, rfl⟩ := List.exists_cons_of_ne_nil hne
        exact Bool.false_ne_true ((stops_cons.mp hstop).symm.trans (hrun c List.mem_cons_self))
      obtain ⟨a, ha, rfl⟩ := exists_assignment hbefore hrun (namesSecret_iff.mp hname) g
      have hmarked := h a ha
      have hleft : redactChars a.given.after = a.given.after := by
        refine ihleft a.given rfl (before ++ (run ++ a.given.sign :: mark.toList)) (.inr ?_) ?_
        · rw [← List.append_assoc, List.getLast?_append_of_ne_nil _ (List.cons_ne_nil _ _)]
          exact mark_ends a.given.sign
        · intro b hb
          refine h b ?_
          rw [hb, hmarked.text_eq]
          simp
      rw [redactAfter_text hname, a.given.marked_redacted.text_eq, hmarked.text_eq]
      exact congrArg (fun left => run ++ a.given.sign :: (mark.toList ++ left)) hleft
    · have hnot : namesSecret run = true → ∀ g : Given, g.text ≠ after := fun hname g hg => hgiven ⟨hname, g, hg⟩
      rw [redactAfter_of_not_given hnot, ih (before ++ run) (.inl hafter) (by simpa using h)]

/-! ## Texts -/

theorem redactText_redactText (s : String) : redactText (redactText s) = redactText s := by
  rw [redactText, redactText, String.toList_ofList, redactChars_redactChars]

/-- Wherever the pattern matches, the value is the mark. -/
def Marked (s : String) : Prop := ∀ a : Assignment, a.text = s.toList → a.given.Marked

/-- The texts without secrets are those that redaction leaves alone. -/
theorem redactText_eq_self_iff {s : String} : redactText s = s ↔ Marked s := by
  constructor
  · intro h a ha
    have hchars : redactChars s.toList = s.toList := by simpa [redactText] using congrArg String.toList h
    exact marked_of_redactChars (hchars.trans ha.symm) a.key_chars a.key_secret
  · intro h
    have hchars : redactChars s.toList = s.toList := redactChars_of_marked [] (.inr nofun) h
    rw [redactText, hchars, String.ofList_toList]

end Log

end Stanza
