import Mathlib.Algebra.Group.Nat.Even
import Mathlib.Data.List.DropRight
import Mathlib.Data.Set.Function
import Stanza.Proofs.Header.Canonical
import Stanza.Proofs.Logged.Failure

/-! # The grammar of headers

A header is a name between brackets, or a name, a gap and a quoted text. What the parser takes is told here by the
characters alone, without its steps.
-/
namespace Stanza

namespace Text

/-- Read from left to right, a backslash yields the character after it. No backslash is left alone. -/
inductive Unescapes : List Char → List Char → Prop
  | nil : Unescapes [] []
  | plain {c : Char} {cs ds : List Char} (hc : c ≠ '\\') (h : Unescapes cs ds) : Unescapes (c :: cs) (c :: ds)
  | escaped {c : Char} {cs ds : List Char} (h : Unescapes cs ds) : Unescapes ('\\' :: c :: cs) (c :: ds)

theorem Unescapes.unescape_eq {cs ds : List Char} (h : Unescapes cs ds) : unescape cs = ds := by
  induction h with
  | nil => rfl
  | plain hc _ ih => rw [unescape.eq_2 _ _ (by simp [hc]), ih]
  | escaped _ ih => rw [unescape, ih]

def trailing (cs : List Char) : Nat := (cs.rtakeWhile (· == '\\')).length

theorem trailing_concat (cs : List Char) (c : Char) :
    trailing (cs ++ [c]) = if c = '\\' then trailing cs + 1 else 0 := by
  unfold trailing
  by_cases hc : c = '\\'
  · simp [hc]
  · rw [List.rtakeWhile_concat_neg _ _ _ (by simp [hc]), if_neg hc]
    rfl

/-- In front of a text, a backslash counts at the end only if nothing but backslashes follow it. -/
theorem trailing_cons (c : Char) (cs : List Char) : trailing (c :: cs) =
    if c = '\\' ∧ trailing cs = cs.length then cs.length + 1 else trailing cs := by
  induction cs using List.reverseRecOn with
  | nil =>
    have h := trailing_concat [] c
    rw [List.nil_append] at h
    rw [h]
    simp [trailing]
  | append_singleton cs d ih =>
    rw [← List.cons_append, trailing_concat, trailing_concat, ih, List.length_append, List.length_singleton]
    by_cases hd : d = '\\'
    · rw [if_pos hd, if_pos hd]
      by_cases hc : c = '\\' ∧ trailing cs = cs.length
      · rw [if_pos hc, if_pos ⟨hc.1, by omega⟩]
      · rw [if_neg hc, if_neg fun h => hc ⟨h.1, by omega⟩]
    · rw [if_neg hd, if_neg hd, if_neg fun h => by omega]

theorem trailing_le (cs : List Char) : trailing cs ≤ cs.length := (List.rtakeWhile_suffix _ cs).length_le

/-- An escaped character counts only together with the backslash in front of it. -/
theorem even_trailing_escaped (c : Char) (cs : List Char) : Even (trailing ('\\' :: c :: cs)) ↔ Even (trailing cs) := by
  have hle := trailing_le cs
  rw [trailing_cons, trailing_cons, List.length_cons]
  by_cases hall : c = '\\' ∧ trailing cs = cs.length
  · rw [if_pos hall, if_pos ⟨rfl, rfl⟩, hall.2, Nat.even_add_one, Nat.even_add_one, not_not]
  · have hne : trailing cs ≠ cs.length + 1 := by omega
    rw [if_neg hall, if_neg fun h => hne h.2]

theorem Unescapes.even_trailing {cs ds : List Char} (h : Unescapes cs ds) : Even (trailing cs) := by
  induction h with
  | nil => exact Even.zero
  | plain hc _ ih => rwa [trailing_cons, if_neg fun h => hc h.1]
  | escaped _ ih => exact (even_trailing_escaped _ _).mpr ih

theorem unescapes_unescape {cs : List Char} (h : Even (trailing cs)) : Unescapes cs (unescape cs) := by
  fun_induction unescape cs with
  | case1 c cs ih => exact .escaped (ih ((even_trailing_escaped c cs).mp h))
  | case2 c cs hne ih =>
    have hc : c ≠ '\\' := by
      rintro rfl
      cases cs with
      | nil => exact absurd h (by decide)
      | cons d cs => exact hne d cs rfl rfl
    refine .plain hc (ih ?_)
    rwa [trailing_cons, if_neg fun h => hc h.1] at h
  | case3 => exact .nil

end Text

namespace Header

def IsName (name : String) : Prop := name ≠ "" ∧ ∀ c ∈ name.toList, c.isAlphanum = true ∨ c = '-'

/-- The parts of a header with a subsection: a name, a gap, the text between the quotes, and what that text says. -/
structure Parts where
  name : String
  gap : String
  body : String
  subsection : String

namespace Parts

def text (p : Parts) : String := "[" ++ p.name ++ p.gap ++ "\"" ++ p.body ++ "\"]"

def header (p : Parts) : Header := { name := p.name, subsection := some p.subsection }

structure Valid (p : Parts) : Prop where
  name : IsName p.name
  gap_ne : p.gap ≠ ""
  gap : ∀ c ∈ p.gap.toList, c = ' ' ∨ c = '\t'
  clean : ∀ c ∈ p.body.toList, ¬(c.toNat ≤ 0x8 ∨ (0xe ≤ c.toNat ∧ c.toNat ≤ 0x1f) ∨ c.toNat = 0x7f)
  even : Even (Text.trailing p.body.toList)
  unescapes : Text.Unescapes p.body.toList p.subsection.toList

end Parts

theorem isName_iff {name : String} : IsName name ↔ name.toList ≠ [] ∧ ∀ c ∈ name.toList, isNameChar c = true := by
  simp [IsName, isNameChar]

theorem isNameChar_of_isGap {c : Char} (h : isGap c = true) : isNameChar c = false := by
  simp only [isGap, Bool.or_eq_true, beq_iff_eq] at h
  rcases h with rfl | rfl <;> rfl

theorem endsInQuote_iff {cs : List Char} :
    endsInQuote cs = true ↔ ∃ body, cs = body ++ ['"'] ∧ Even (Text.trailing body) := by
  have hlast : ∀ body, endsInQuote (body ++ ['"']) = true ↔ Even (Text.trailing body) := by
    intro body
    rw [endsInQuote, List.reverse_append]
    simp [Text.trailing, List.rtakeWhile, Nat.even_iff]
  constructor
  · intro h
    rcases List.eq_nil_or_concat' cs with rfl | ⟨body, c, rfl⟩
    · cases h
    · by_cases hc : c = '"'
      · subst hc
        exact ⟨body, rfl, (hlast body).mp h⟩
      · rw [endsInQuote, List.reverse_append] at h
        simp [hc] at h
  · rintro ⟨body, rfl, h⟩
    exact (hlast body).mpr h

/-- What is read of a subsection stands between quotes. -/
theorem unquote_eq_ok_iff {cs ds : List Char} : unquote cs = .ok ds ↔
    ∃ body, cs = '"' :: (body ++ ['"']) ∧ Text.Unescapes body ds := by
  constructor
  · intro h
    unfold unquote at h
    split at h
    · next rest =>
      split at h
      · next hq =>
        obtain ⟨body, rfl, heven⟩ := endsInQuote_iff.mp hq
        rw [List.dropLast_concat] at h
        cases h
        exact ⟨body, rfl, Text.unescapes_unescape heven⟩
      · cases h
    · cases h
  · rintro ⟨body, rfl, h⟩
    have hq : endsInQuote (body ++ ['"']) = true := endsInQuote_iff.mpr ⟨body, rfl, h.even_trailing⟩
    rw [unquote, if_pos hq, List.dropLast_concat, h.unescape_eq]

/-! ## The text between the brackets -/

variable {name gap inner : List Char}

theorem takeWhile_name (hn : ∀ c ∈ name, isNameChar c = true) (hw : gap ≠ []) (hg : ∀ c ∈ gap, isGap c = true)
    (rest : List Char) : (name ++ (gap ++ rest)).takeWhile isNameChar = name ∧
      (name ++ (gap ++ rest)).dropWhile isNameChar = gap ++ rest := by
  cases gap with
  | nil => exact absurd rfl hw
  | cons c gap =>
    have hc : isNameChar c = false := isNameChar_of_isGap (hg c List.mem_cons_self)
    rw [List.takeWhile_append_of_pos hn, List.dropWhile_append_of_pos hn, List.cons_append,
      List.takeWhile_cons_of_neg (by simp [hc]), List.dropWhile_cons_of_neg (by simp [hc]), List.append_nil]
    exact ⟨rfl, rfl⟩

theorem takeWhile_gap (hg : ∀ c ∈ gap, isGap c = true) (rest : List Char) :
    (gap ++ '"' :: rest).takeWhile isGap = gap ∧ (gap ++ '"' :: rest).dropWhile isGap = '"' :: rest := by
  rw [List.takeWhile_append_of_pos hg, List.dropWhile_append_of_pos hg, List.takeWhile_cons_of_neg (by decide),
    List.dropWhile_cons_of_neg (by decide), List.append_nil]
  exact ⟨rfl, rfl⟩

theorem splitName_eq_none_iff : splitName inner = some (name, none) ↔
    inner = name ∧ name ≠ [] ∧ ∀ c ∈ name, isNameChar c = true := by
  constructor
  · intro h
    have hne := ne_nil_of_splitName h
    have hname := (splitName_eq_some h).1
    unfold splitName at h
    split at h
    · cases h
    · next hd _ =>
      have hall := List.dropWhile_eq_nil_iff.mp hd
      have hinner : inner = name := by rw [hname, List.takeWhile_eq_self_iff.mpr hall]
      exact ⟨hinner, hne, hinner ▸ hall⟩
    · split at h
      · split at h <;> cases h
      · cases h
  · rintro ⟨rfl, hne, hn⟩
    exact splitName_name hne hn

theorem splitName_quote (hne : name ≠ []) (hn : ∀ c ∈ name, isNameChar c = true) (hw : gap ≠ [])
    (hg : ∀ c ∈ gap, isGap c = true) (rest : List Char) : splitName (name ++ (gap ++ '"' :: rest)) =
      if ('"' :: rest).any isForbidden then none else some (name, some ('"' :: rest)) := by
  obtain ⟨ht, hd⟩ := takeWhile_name hn hw hg ('"' :: rest)
  obtain ⟨htg, hdg⟩ := takeWhile_gap hg rest
  have hafter : afterGap (gap ++ '"' :: rest) = some ('"' :: rest) := by
    rw [afterGap, hdg, htg]
    simp [hw]
  rw [splitName, ht, hd]
  split
  · exact absurd rfl hne
  · next heq => simp at heq
  · rw [hafter]

/-- What starts with a quote is not the last blank of a gap, so it follows the whole gap. -/
theorem afterGap_eq_some {cs rest : List Char} (h : afterGap cs = some ('"' :: rest)) :
    ∃ gap, cs = gap ++ '"' :: rest ∧ gap ≠ [] ∧ ∀ c ∈ gap, isGap c = true := by
  have hmem : '"' ∈ cs := mem_of_mem_afterGap h List.mem_cons_self
  unfold afterGap at h
  split at h
  · next hd =>
    have hquote : isGap '"' = true := List.dropWhile_eq_nil_iff.mp hd '"' hmem
    cases hquote
  · split at h
    · cases h
    · next hw =>
      have hdrop : cs.dropWhile isGap = '"' :: rest := Option.some.inj h
      refine ⟨cs.takeWhile isGap, ?_, ?_, ?_⟩
      · rw [← hdrop, List.takeWhile_append_dropWhile]
      · simpa using hw
      · intro c hc
        exact List.mem_takeWhile_imp hc

theorem splitName_eq_some_iff {rest : List Char} : splitName inner = some (name, some ('"' :: rest)) ↔
    ∃ gap, inner = name ++ (gap ++ '"' :: rest) ∧ (name ≠ [] ∧ ∀ c ∈ name, isNameChar c = true) ∧
      (gap ≠ [] ∧ ∀ c ∈ gap, isGap c = true) ∧ ∀ c ∈ rest, isForbidden c = false := by
  constructor
  · intro h
    have hne := ne_nil_of_splitName h
    obtain ⟨hname, hclean⟩ := splitName_eq_some h
    have hn : ∀ c ∈ name, isNameChar c = true := by
      rw [hname]
      intro c hc
      exact List.mem_takeWhile_imp hc
    have hafter : afterGap (inner.dropWhile isNameChar) = some ('"' :: rest) := by
      unfold splitName at h
      split at h
      · cases h
      · cases h
      · split at h
        · next sub hsub =>
          split at h
          · cases h
          · cases h
            exact hsub
        · cases h
    obtain ⟨gap, hgap, hw, hg⟩ := afterGap_eq_some hafter
    refine ⟨gap, ?_, ⟨hne, hn⟩, ⟨hw, hg⟩, ?_⟩
    · rw [← hgap, hname, List.takeWhile_append_dropWhile]
    · intro c hc
      exact (hclean _ rfl c (List.mem_cons_of_mem _ hc)).1
  · rintro ⟨gap, rfl, ⟨hne, hn⟩, ⟨hw, hg⟩, hc⟩
    rw [splitName_quote hne hn hw hg, if_neg]
    simpa [isForbidden] using hc

/-! ## Whole headers -/

theorem read_bracketed_iff {h : Header} : read ('[' :: (inner ++ [']'])) = .ok h ↔
    (∃ name, splitName inner = some (name, none) ∧ h = { name := String.ofList name }) ∨
    ∃ name sub cs, splitName inner = some (name, some sub) ∧ unquote sub = .ok cs ∧
      h = { name := String.ofList name, subsection := some (String.ofList cs) } := by
  rw [read, unbracket?_append, Option.bind_some]
  cases hs : splitName inner with
  | none => simp
  | some found =>
    obtain ⟨name, sub⟩ := found
    cases sub with
    | none => simp [eq_comm]
    | some sub =>
      simp only [Except.bind_eq_ok_iff, Option.some.injEq, Prod.mk.injEq, reduceCtorEq, and_false, false_and,
        exists_false, false_or]
      constructor
      · rintro ⟨cs, hu, hp⟩
        cases hp
        exact ⟨name, sub, cs, ⟨rfl, rfl⟩, hu, rfl⟩
      · rintro ⟨_, _, cs, ⟨rfl, rfl⟩, hu, rfl⟩
        exact ⟨cs, hu, rfl⟩

theorem parse_eq_ok_iff {text : String} {h : Header} : parse text = .ok h ↔
    ∃ inner, text.toList = '[' :: (inner ++ [']']) ∧ read ('[' :: (inner ++ [']'])) = .ok h := by
  constructor
  · intro hp
    obtain ⟨key, rfl, _⟩ := exists_key_of_parse hp
    have hl : ("[" ++ key ++ "]").toList = '[' :: (key.toList ++ [']']) := by simp
    rw [parse, Except.mapError_eq_ok_iff, hl] at hp
    exact ⟨key.toList, hl, hp⟩
  · rintro ⟨inner, ht, h⟩
    rwa [parse, Except.mapError_eq_ok_iff, ht]

theorem parse_eq_ok_name_iff {text name : String} :
    parse text = .ok { name } ↔ IsName name ∧ "[" ++ name ++ "]" = text := by
  rw [parse_eq_ok_iff, isName_iff, ← String.toList_inj]
  simp only [read_bracketed_iff, splitName_eq_none_iff, mk.injEq, reduceCtorEq, and_false, exists_false, or_false]
  constructor
  · rintro ⟨inner, ht, _, ⟨rfl, hne, hn⟩, rfl, -⟩
    rw [String.toList_ofList]
    exact ⟨⟨hne, hn⟩, by simp [ht]⟩
  · rintro ⟨⟨hne, hn⟩, ht⟩
    exact ⟨name.toList, by simp [← ht], name.toList, ⟨rfl, hne, hn⟩, by simp⟩

theorem Parts.valid_iff {p : Parts} : p.Valid ↔
    (p.name.toList ≠ [] ∧ ∀ c ∈ p.name.toList, isNameChar c = true) ∧
    (p.gap.toList ≠ [] ∧ ∀ c ∈ p.gap.toList, isGap c = true) ∧
    (∀ c ∈ p.body.toList, isForbidden c = false) ∧ Text.Unescapes p.body.toList p.subsection.toList := by
  have hgap : ∀ c, isGap c = true ↔ c = ' ' ∨ c = '\t' := by simp [isGap]
  rw [← isName_iff]
  simp only [isForbidden_eq_false_iff, hgap]
  constructor
  · intro h
    exact ⟨h.name, ⟨by simpa using h.gap_ne, h.gap⟩, h.clean, h.unescapes⟩
  · rintro ⟨hname, ⟨hw, hg⟩, hc, hu⟩
    exact ⟨hname, by simpa using hw, hg, hc, hu.even_trailing, hu⟩

theorem Parts.toList_text (p : Parts) : p.text.toList =
    '[' :: ((p.name.toList ++ (p.gap.toList ++ '"' :: (p.body.toList ++ ['"']))) ++ [']']) := by
  simp [text]

theorem parse_eq_ok_sub_iff {text name sub : String} : parse text = .ok { name, subsection := some sub } ↔
    ∃ p : Parts, p.Valid ∧ p.text = text ∧ p.header = { name, subsection := some sub } := by
  rw [parse_eq_ok_iff]
  simp only [read_bracketed_iff, unquote_eq_ok_iff, Parts.valid_iff, Parts.header, mk.injEq, reduceCtorEq, and_false,
    exists_false, false_or, Option.some.injEq]
  constructor
  · rintro ⟨inner, ht, cs, _, ds, hs, ⟨body, rfl, hu⟩, rfl, rfl⟩
    obtain ⟨gap, rfl, hname, hgap, hc⟩ := splitName_eq_some_iff.mp hs
    refine ⟨⟨String.ofList cs, String.ofList gap, String.ofList body, String.ofList ds⟩, ?_, ?_, rfl, rfl⟩
    · simp only [String.toList_ofList]
      exact ⟨hname, hgap, fun c hm => hc c (List.mem_append_left _ hm), hu⟩
    · rw [← String.toList_inj, ht, Parts.toList_text]
      simp
  · rintro ⟨p, ⟨hname, hgap, hc, hu⟩, rfl, rfl, rfl⟩
    have hclean : ∀ c ∈ p.body.toList ++ ['"'], isForbidden c = false := by
      intro c hm
      rcases List.mem_append.mp hm with hm | hm
      · exact hc c hm
      · rw [List.mem_singleton.mp hm]
        rfl
    have hs := splitName_eq_some_iff.mpr ⟨p.gap.toList, rfl, hname, hgap, hclean⟩
    exact ⟨_, p.toList_text, _, _, _, hs, ⟨_, rfl, hu⟩, by simp, by simp⟩

/-- The parts of a header are found in its text. -/
theorem Parts.injOn_text : Set.InjOn Parts.text {p | p.Valid} := by
  rintro p hp q hq he
  obtain ⟨⟨_, hn⟩, ⟨hw, hg⟩, _, hu⟩ := Parts.valid_iff.mp hp
  obtain ⟨⟨_, hn'⟩, ⟨hw', hg'⟩, _, hu'⟩ := Parts.valid_iff.mp hq
  have hlist := congrArg String.toList he
  rw [Parts.toList_text, Parts.toList_text] at hlist
  have hinner := List.append_cancel_right (List.cons.inj hlist).2
  have hnames := congrArg (List.takeWhile isNameChar) hinner
  rw [(takeWhile_name hn hw hg _).1, (takeWhile_name hn' hw' hg' _).1] at hnames
  have hrest := congrArg (List.dropWhile isNameChar) hinner
  rw [(takeWhile_name hn hw hg _).2, (takeWhile_name hn' hw' hg' _).2] at hrest
  have hgaps := congrArg (List.takeWhile isGap) hrest
  rw [(takeWhile_gap hg _).1, (takeWhile_gap hg' _).1] at hgaps
  have hquoted := congrArg (List.dropWhile isGap) hrest
  rw [(takeWhile_gap hg _).2, (takeWhile_gap hg' _).2] at hquoted
  have hbodies := List.append_cancel_right (List.cons.inj hquoted).2
  have hsubs : p.subsection.toList = q.subsection.toList := by
    rw [← hu.unescape_eq, ← hu'.unescape_eq, hbodies]
  obtain ⟨name, gap, body, sub⟩ := p
  obtain ⟨name', gap', body', sub'⟩ := q
  simp only [String.toList_inj] at hnames hgaps hbodies hsubs
  rw [hnames, hgaps, hbodies, hsubs]

/-- A header is parsed exactly if it is a name between brackets, or a name, a gap and a text between quotes, and it is
parsed as that name and what the text says. The parts are found in one way only, and any other text is no header. -/
theorem parse_iff_spelled :
    (∀ text name, parse text = .ok { name } ↔ IsName name ∧ "[" ++ name ++ "]" = text) ∧
    (∀ text name sub, parse text = .ok { name, subsection := some sub } ↔
      ∃ p : Parts, p.Valid ∧ p.text = text ∧ p.header = { name, subsection := some sub }) ∧
    (∀ text, (∃ e, parse text = .error e ∧ e.kind = .grammar) ↔
      (¬ ∃ name, IsName name ∧ "[" ++ name ++ "]" = text) ∧ ¬ ∃ p : Parts, p.Valid ∧ p.text = text) ∧
    Set.InjOn Parts.text {p | p.Valid} := by
  refine ⟨fun _ _ => parse_eq_ok_name_iff, fun _ _ _ => parse_eq_ok_sub_iff, ?_, Parts.injOn_text⟩
  intro text
  constructor
  · rintro ⟨e, he, _⟩
    refine ⟨?_, ?_⟩
    · rintro ⟨name, h⟩
      have hp := parse_eq_ok_name_iff.mpr h
      cases he.symm.trans hp
    · rintro ⟨p, hv, ht⟩
      have hp := parse_eq_ok_sub_iff.mpr ⟨p, hv, ht, rfl⟩
      cases he.symm.trans hp
  · rintro ⟨hname, hsub⟩
    cases hp : parse text with
    | error e =>
      obtain ⟨flaw, _, rfl⟩ := Except.mapError_eq_error_iff.mp hp
      exact ⟨_, rfl, rfl⟩
    | ok h =>
      obtain ⟨name, sub⟩ := h
      cases sub with
      | none => exact absurd ⟨name, parse_eq_ok_name_iff.mp hp⟩ hname
      | some sub =>
        obtain ⟨p, hv, ht, _⟩ := parse_eq_ok_sub_iff.mp hp
        exact absurd ⟨p, hv, ht⟩ hsub

example : parse "[a  \"b]\\\\\"]" = .ok ⟨"a", some "b]\\"⟩ := by rfl

end Header

end Stanza
