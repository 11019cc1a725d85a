import Stanza.File.Toml.Document
import Stanza.Proofs.File.Reader
import Stanza.Proofs.Value

/-! # What TOML text is read as

A reader takes a prefix of its text and gives back the rest. It refuses a text that is no TOML; the one other reason to
fail is a decimal integer with too many digits, and then its digits stand in the text.
-/
namespace Stanza

namespace Toml

open Value (isText)

def Overlong (cs : List Char) (e : Text.DigitLimitError) : Prop :=
  ∃ run, run <:+: cs ∧ (∀ c ∈ run, c.isDigit = true ∨ c = '_') ∧ Text.digitLimit < (run.filter (· != '_')).length ∧
    e = .reading (run.filter (· != '_')).length

theorem Overlong.mono {cs ds : List Char} {e : Text.DigitLimitError} (hs : cs <:+ ds) (h : Overlong cs e) :
    Overlong ds e := by
  obtain ⟨run, hr, h⟩ := h
  exact ⟨run, hr.trans hs.isInfix, h⟩

/-- A text is no TOML, or holds an integer that is too long. -/
instance : Caused Char Error where
  Of cs
    | .invalid => True
    | .digitLimit e => Overlong cs e
  mono {_ _ e} hs h := by
    cases e with
    | invalid => trivial
    | digitLimit e => exact Overlong.mono hs h

variable {cs ds : List Char}

/-! ## Texts -/

theorem hexEscape_reads (count : Nat) (cs : List Char) : ReadsFrom cs Anything (hexEscape count cs) := by
  unfold hexEscape
  dsimp only
  split
  · exact readsFrom_ok (List.drop_suffix _ _) trivial
  · trivial

theorem joinLines_reads (cs : List Char) : ReadsFrom cs Anything (joinLines cs) := by
  have hgap := List.dropWhile_suffix (l := cs) isGap
  unfold joinLines
  split
  · exact readsFrom_ok (List.nil_suffix) trivial
  · next rest h =>
    rw [h] at hgap
    exact readsFrom_ok ((List.dropWhile_suffix _).trans ((List.suffix_cons _ _).trans hgap)) trivial
  · trivial

theorem escape_reads (multiline : Bool) (cs : List Char) : ReadsFrom cs Anything (escape multiline cs) := by
  unfold escape
  split
  case h_8 => exact (hexEscape_reads 4 _).mono (List.suffix_cons _ _)
  case h_9 => exact (hexEscape_reads 8 _).mono (List.suffix_cons _ _)
  case h_10 =>
    split
    · exact joinLines_reads _
    · trivial
  case h_11 => trivial
  all_goals exact readsFrom_ok (List.suffix_cons _ _) trivial

theorem basicText_reads (multiline : Bool) (found cs : List Char) :
    ReadsFrom cs Anything (basicText multiline found cs) := by
  fun_induction basicText multiline found cs with
  | case1 => trivial
  | case2 => exact readsFrom_ok (List.suffix_cons _ _) trivial
  | case3 => exact readsFrom_ok ((List.drop_suffix _ _).trans (List.suffix_cons _ _)) trivial
  | case4 _ _ _ _ ih => exact ih.mono (List.suffix_cons _ _)
  | case5 found rest e h =>
    have hesc := escape_reads multiline rest
    rw [h] at hesc
    exact Caused.mono (List.suffix_cons _ _) hesc
  | case6 found rest text after h _ ih =>
    have hesc := escape_reads multiline rest
    rw [h] at hesc
    exact ih.mono (hesc.1.trans (List.suffix_cons _ _))
  | case7 => trivial
  | case8 => trivial
  | case9 _ _ _ _ _ _ ih => exact ih.mono (List.suffix_cons _ _)

theorem basicText_plain (body found rest : List Char)
    (h : body.all (fun c => c != '"' && c != '\\' && !isControl c) = true) : basicText false found (body ++ '"' :: rest) = .ok (found ++ body, rest) := by
  induction body generalizing found with
  | nil =>
    rw [List.nil_append, basicText, List.append_nil]
    rfl
  | cons c cs ih =>
    simp only [List.all_cons, Bool.and_eq_true, bne_iff_ne, Bool.not_eq_true'] at h
    obtain ⟨⟨⟨hquote, hescape⟩, hcontrol⟩, hcs⟩ := h
    rw [List.cons_append, basicText.eq_4 _ _ _ _ hquote hescape, hcontrol, Bool.false_and, if_neg (by decide),
      ih _ hcs, List.append_assoc]
    rfl

theorem literalText_reads (cs : List Char) : ReadsFrom cs Anything (literalText cs) := by
  have hbody := List.dropWhile_suffix (l := cs) (· != '\'')
  unfold literalText
  dsimp only
  split
  · next h =>
    rw [h] at hbody
    split
    · trivial
    · exact readsFrom_ok ((List.suffix_cons _ _).trans hbody) trivial
  · trivial

theorem literalLines_reads (cs : List Char) : ReadsFrom cs Anything (literalLines cs) := by
  fun_induction literalLines cs with
  | case1 rest => exact readsFrom_ok (List.suffix_append ['\'', '\'', '\''] rest) trivial
  | case2 => trivial
  | case3 c rest _ _ ih =>
    refine ReadsFrom.mono (List.suffix_cons _ _) (ih.bind fun body after _ _ => ?_)
    exact readsFrom_ok List.suffix_rfl trivial
  | case4 => trivial

theorem dropFirstLineEnd_suffix (cs : List Char) : dropFirstLineEnd cs <:+ cs := by
  unfold dropFirstLineEnd
  split
  · exact List.suffix_cons _ _
  · exact List.suffix_rfl

theorem quotedText_reads (cs : List Char) : ReadsFrom cs Anything (quotedText cs) := by
  have hlast : ∀ quote body rest, ReadsFrom rest Anything (.ok (lastQuotes quote body rest) : Except Error _) :=
    fun quote body rest => readsFrom_ok (List.drop_suffix _ _) trivial
  unfold quotedText
  split
  · next rest =>
    have hrest := (dropFirstLineEnd_suffix rest).trans (List.suffix_append ['"', '"', '"'] rest)
    exact ReadsFrom.mono hrest ((basicText_reads true [] _).bind fun body after _ _ => hlast '"' body after)
  · exact (basicText_reads false [] _).mono (List.suffix_cons _ _)
  · next rest =>
    have hrest := (dropFirstLineEnd_suffix rest).trans (List.suffix_append ['\'', '\'', '\''] rest)
    exact ReadsFrom.mono hrest ((literalLines_reads _).bind fun body after _ _ => hlast '\'' body after)
  · exact (literalText_reads _).mono (List.suffix_cons _ _)
  · trivial

/-! ## Scalars -/

theorem char?_suffix {c : Char} {rest : List Char} (h : char? c cs = some rest) : rest <:+ cs := by
  unfold char? at h
  split at h
  · split at h
    · cases h
      exact List.suffix_cons _ _
    · cases h
  · cases h

theorem twoDigits?_suffix {least bound n : Nat} {rest : List Char} (h : twoDigits? least bound cs = some (n, rest)) :
    rest <:+ cs := by
  unfold twoDigits? at h
  split at h
  · dsimp only at h
    split at h
    · cases h
      exact List.suffix_append [_, _] _
    · cases h
  · cases h

theorem clock?_suffix {t : Clock} {rest : List Char} (h : clock? cs = some (t, rest)) : rest <:+ cs := by
  simp only [clock?, Option.bind_eq_bind, Option.bind_eq_some_iff] at h
  obtain ⟨⟨hour, afterHour⟩, hh, first, h₁, ⟨minute, afterMinute⟩, hm, second, h₂, ⟨sec, last⟩, hs, h⟩ := h
  have hlast : last <:+ cs := (twoDigits?_suffix hs).trans ((char?_suffix h₂).trans
    ((twoDigits?_suffix hm).trans ((char?_suffix h₁).trans (twoDigits?_suffix hh))))
  dsimp only at h
  split at h
  · next fraction =>
    split at h <;> cases h
    · exact hlast
    · exact (List.dropWhile_suffix _).trans ((List.suffix_cons _ _).trans hlast)
  · cases h
    exact hlast

theorem offset?_suffix {o : Int} {rest : List Char} (h : offset? cs = some (o, rest)) : rest <:+ cs := by
  unfold offset? at h
  split at h
  · split at h
    · cases h
      exact List.suffix_cons _ _
    · split at h
      · simp only [Option.bind_eq_bind, Option.bind_eq_some_iff] at h
        obtain ⟨⟨hours, afterHours⟩, hh, colon, hc, ⟨minutes, afterMinutes⟩, hm, h⟩ := h
        cases h
        exact (twoDigits?_suffix hm).trans ((char?_suffix hc).trans ((twoDigits?_suffix hh).trans (List.suffix_cons _ _)))
      · cases h
  · cases h

theorem date?_suffix {d : Date} {rest : List Char} (h : date? cs = some (d, rest)) : rest <:+ cs := by
  unfold date? at h
  dsimp only at h
  split at h
  · cases h
  · simp only [Option.bind_eq_bind, Option.bind_eq_some_iff] at h
    obtain ⟨first, h₁, ⟨month, afterMonth⟩, hm, second, h₂, ⟨day, afterDay⟩, hd, h⟩ := h
    cases h
    exact (twoDigits?_suffix hd).trans ((char?_suffix h₂).trans
      ((twoDigits?_suffix hm).trans ((char?_suffix h₁).trans (List.drop_suffix _ _))))

theorem dateTime?_suffix {m : Moment} {rest : List Char} (h : dateTime? cs = some (m, rest)) : rest <:+ cs := by
  simp only [dateTime?, Option.bind_eq_bind, Option.bind_eq_some_iff] at h
  obtain ⟨⟨d, after⟩, hd, h⟩ := h
  have hafter := date?_suffix hd
  dsimp only at h
  split at h
  · cases h
    exact hafter
  · next t last htimed =>
    have hlast : last <:+ after := by
      split at htimed
      · split at htimed
        · exact (clock?_suffix htimed).trans (List.suffix_cons _ _)
        · cases htimed
      · cases htimed
    split at h
    · next o end' ho =>
      cases h
      exact (offset?_suffix ho).trans (hlast.trans hafter)
    · cases h
      exact hlast.trans hafter

/-- A run of digits is taken from the front of a text, with the underscores between them. -/
theorem exists_run_of_digitRun {ok : Char → Bool} (hu : ok '_' = false) (cs : List Char) : ∃ run,
    cs = run ++ (digitRun ok cs).2 ∧ run.filter (· != '_') = (digitRun ok cs).1 ∧ ∀ c ∈ run, ok c = true ∨ c = '_' := by
  have hne : ∀ {c : Char}, ok c = true → (c != '_') = true := by
    intro c hc
    rw [bne_iff_ne]
    rintro rfl
    rw [hu] at hc
    cases hc
  fun_induction digitRun ok cs with
  | case1 c rest hc more after h ih =>
    obtain ⟨run, hrest, hf, hall⟩ := ih
    rw [h] at hrest hf
    refine ⟨'_' :: c :: run, by rw [hrest]; rfl, ?_, ?_⟩
    · rw [List.filter_cons_of_neg (by decide), List.filter_cons, if_pos (hne hc), hf]
    · exact List.forall_mem_cons.mpr ⟨.inr rfl, List.forall_mem_cons.mpr ⟨.inl hc, hall⟩⟩
  | case2 => exact ⟨[], rfl, rfl, List.forall_mem_nil _⟩
  | case3 c rest _ hc more after h ih =>
    obtain ⟨run, hrest, hf, hall⟩ := ih
    rw [h] at hrest hf
    refine ⟨c :: run, by rw [hrest]; rfl, ?_, List.forall_mem_cons.mpr ⟨.inl hc, hall⟩⟩
    rw [List.filter_cons, if_pos (hne hc), hf]
  | case4 => exact ⟨[], rfl, rfl, List.forall_mem_nil _⟩
  | case5 => exact ⟨[], rfl, rfl, List.forall_mem_nil _⟩

theorem exists_run_of_firstDigits {ok : Char → Bool} (hu : ok '_' = false) {ds rest : List Char}
    (h : firstDigits ok cs = some (ds, rest)) :
    ∃ run, cs = run ++ rest ∧ run.filter (· != '_') = ds ∧ ∀ c ∈ run, ok c = true ∨ c = '_' := by
  cases cs with
  | nil => cases h
  | cons c cs =>
    rw [firstDigits] at h
    split at h
    · have hrun := exists_run_of_digitRun hu (c :: cs)
      rw [Option.some.inj h] at hrun
      exact hrun
    · cases h

theorem firstDigits_suffix {ok : Char → Bool} (hu : ok '_' = false) {ds rest : List Char}
    (h : firstDigits ok cs = some (ds, rest)) : rest <:+ cs := by
  obtain ⟨run, hcs, _⟩ := exists_run_of_firstDigits hu h
  rw [hcs]
  exact List.suffix_append _ _

theorem based?_suffix {n : Nat} {rest : List Char} (h : based? cs = some (n, rest)) : rest <:+ cs := by
  unfold based? at h
  split at h
  case h_4 => cases h
  all_goals
    obtain ⟨⟨ds, after⟩, hd, h⟩ := Option.map_eq_some_iff.mp h
    cases h
    exact (firstDigits_suffix (by decide) hd).trans (List.suffix_cons _ _)

theorem exists_run_of_whole? {ds rest : List Char} (h : whole? cs = some (ds, rest)) :
    ∃ run, cs = run ++ rest ∧ run.filter (· != '_') = ds ∧ ∀ c ∈ run, c.isDigit = true ∨ c = '_' := by
  unfold whole? at h
  split at h
  · cases h
    exact ⟨['0'], rfl, rfl, List.forall_mem_singleton.mpr (.inl rfl)⟩
  · exact exists_run_of_firstDigits (by decide) h

theorem fraction_suffix (cs : List Char) : (fraction cs).2 <:+ cs := by
  unfold fraction
  split
  · split
    · next h => exact (firstDigits_suffix (by decide) h).trans (List.suffix_cons _ _)
    · exact List.suffix_rfl
  · exact List.suffix_rfl

theorem exponent_suffix (cs : List Char) : (exponent cs).2 <:+ cs := by
  unfold exponent
  split
  · split
    · dsimp only
      split
      · next h =>
        exact (firstDigits_suffix (by decide) h).trans ((List.drop_suffix _ _).trans (List.suffix_cons _ _))
      · exact List.suffix_rfl
    · exact List.suffix_rfl
  · exact List.suffix_rfl

theorem number?_reads {x : Except Error (Value × List Char)} (h : number? cs = some x) :
    ReadsFrom cs (Value.Raw isText) x := by
  unfold number? at h
  dsimp only at h
  split at h
  · next n rest hb =>
    cases h
    refine readsFrom_ok ?_ (.int _)
    split at hb
    · exact (based?_suffix hb).trans (List.suffix_cons _ _)
    · cases hb
  · obtain ⟨⟨ds, rest⟩, hw, rfl⟩ := Option.map_eq_some_iff.mp h
    obtain ⟨run, hrun, hf, hall⟩ := exists_run_of_whole? hw
    have hdrop := List.drop_suffix ((cs.take 1).filter fun s => s == '+' || s == '-').length cs
    have hrest : rest <:+ cs := by
      refine List.IsSuffix.trans ?_ hdrop
      rw [hrun]
      exact List.suffix_append _ _
    have hend := (exponent_suffix (fraction rest).2).trans ((fraction_suffix rest).trans hrest)
    dsimp only
    split
    · split
      · exact readsFrom_ok hend (.int _)
      · next e he =>
        unfold Text.readDigits at he
        split at he
        · next hl =>
          rw [List.length_map, ← hf] at hl he
          cases he
          refine ⟨run, ?_, hall, hl, rfl⟩
          exact (List.infix_iff_prefix_suffix.mpr ⟨_, ⟨rest, hrun.symm⟩, hdrop⟩)
        · cases he
    · split
      · exact readsFrom_ok hend (.float _)
      · trivial

theorem special?_reads {p : Value × List Char} (h : special? cs = some p) :
    ReadsFrom cs (Value.Raw isText) (.ok p : Except Error _) := by
  unfold special? at h
  dsimp only at h
  split at h
  · obtain ⟨x, _, rfl⟩ := Option.map_eq_some_iff.mp h
    exact readsFrom_ok (List.drop_suffix _ _) (.float x)
  · cases h

theorem scalar_reads (cs : List Char) : ReadsFrom cs (Value.Raw isText) (scalar cs) := by
  unfold scalar
  split
  · exact readsFrom_ok (List.drop_suffix _ _) (.bool _)
  split
  · exact readsFrom_ok (List.drop_suffix _ _) (.bool _)
  split
  · next h =>
    split
    · exact readsFrom_ok (dateTime?_suffix h) (.moment _)
    · trivial
  split
  · next h => exact readsFrom_ok (clock?_suffix h) (.moment _)
  split
  · next h => exact number?_reads h
  split
  · next h => exact special?_reads h
  · trivial

/-! ## Keys and gaps -/

theorem keyPart_reads (cs : List Char) : ReadsFrom cs Anything (keyPart cs) := by
  unfold keyPart
  split
  · refine ReadsFrom.mono (List.suffix_cons _ _) ((basicText_reads false [] _).bind fun _ _ _ _ => ?_)
    exact readsFrom_ok List.suffix_rfl trivial
  · refine ReadsFrom.mono (List.suffix_cons _ _) ((literalText_reads _).bind fun _ _ _ _ => ?_)
    exact readsFrom_ok List.suffix_rfl trivial
  · split
    · trivial
    · exact readsFrom_ok (List.dropWhile_suffix _) trivial

theorem key_reads (cs : List Char) : ReadsFrom cs Anything (key cs) := by
  induction hn : cs.length using Nat.strong_induction_on generalizing cs with
  | _ n ih =>
    subst hn
    rw [key]
    refine (keyPart_reads cs).bind fun part after hafter _ => ?_
    have hgap := List.dropWhile_suffix (l := after) isGap
    dsimp only
    split
    · next rest h =>
      rw [h] at hgap
      have hrest := (List.dropWhile_suffix (l := rest) isGap).trans ((List.suffix_cons _ _).trans hgap)
      split
      · next hlt =>
        refine ReadsFrom.mono hrest ((ih _ hlt _ rfl).bind fun parts after _ _ => ?_)
        exact readsFrom_ok List.suffix_rfl trivial
      · trivial
    · exact readsFrom_ok hgap trivial

theorem key_of_dot {cs after : List Char} {part : String} {parts : Key} (rest : List Char)
    (hp : keyPart cs = .ok (part, '.' :: rest))
    (hlt : (rest.dropWhile isGap).length < cs.length) (hk : key (rest.dropWhile isGap) = .ok (parts, after)) :
    key cs = .ok (part :: parts, after) := by
  rw [key, hp]
  change (if (rest.dropWhile isGap).length < cs.length then
    (do let p ← key (rest.dropWhile isGap); return (part :: p.1, p.2)) else throw .invalid) = _
  rw [if_pos hlt, hk]
  rfl

theorem comment_skips (cs : List Char) : Skips cs (comment cs) := by
  unfold comment
  split
  · split
    · trivial
    · exact (List.dropWhile_suffix _).trans (List.suffix_cons _ _)
  · exact List.suffix_rfl

theorem arrayGap_skips (cs : List Char) : Skips cs (arrayGap cs) := by
  induction hn : cs.length using Nat.strong_induction_on generalizing cs with
  | _ n ih =>
    subst hn
    rw [arrayGap]
    refine Except.Ends.bind ((comment_skips _).mono (List.dropWhile_suffix _)) fun after hafter => ?_
    split
    · next hlt => exact (ih _ hlt _ rfl).mono hafter
    · exact hafter

/-! ## Changes -/

def KeepsRaw (change : Change) : Prop :=
  ∀ entries, entries.Raw isText → ∀ changed, change entries = some changed → changed.Raw isText

theorem raw_set {entries : Settings} (h : entries.Raw isText) (name : String) {v : Value} (hv : v.Raw isText) :
    (entries.set name v).Raw isText :=
  h.insert rfl hv

theorem raw_of_get? {entries : Settings} (h : entries.Raw isText) {name : String} {v : Value}
    (hv : entries.get? name = some v) : v.Raw isText :=
  (h _ (Settings.mem_of_get? hv)).2

theorem changeLast_raw {change : Change} (hc : KeepsRaw change) {items changed : List Value} (hi : ∀ x ∈ items, x.Raw isText)
    (h : changeLast change items = some changed) : ∀ x ∈ changed, x.Raw isText := by
  fun_induction changeLast change items generalizing changed with
  | case1 => cases h
  | case2 entries =>
    obtain ⟨after, ha, h⟩ := Option.bind_eq_some_iff.mp h
    cases h
    have hentries := Settings.raw_map_iff.mp (hi _ List.mem_cons_self)
    exact List.forall_mem_singleton.mpr (Settings.raw_map_iff.mpr (hc _ hentries _ ha))
  | case3 => cases h
  | case4 x xs _ _ ih =>
    obtain ⟨after, ha, h⟩ := Option.bind_eq_some_iff.mp h
    cases h
    exact List.forall_mem_cons.mpr ⟨hi _ List.mem_cons_self, ih (fun y hy => hi y (List.mem_cons_of_mem _ hy)) ha⟩

theorem changeAt_raw (intoArrays : Bool) {change : Change} (hc : KeepsRaw change) (k : Key) :
    KeepsRaw (changeAt intoArrays change k) := by
  induction k with
  | nil => exact hc
  | cons name k ih =>
    intro entries he changed h
    rw [changeAt] at h
    split at h
    · obtain ⟨inner, hi, h⟩ := Option.bind_eq_some_iff.mp h
      cases h
      exact raw_set he name (Settings.raw_map_iff.mpr (ih [] (List.forall_mem_nil _) _ hi))
    · next before hget =>
      obtain ⟨inner, hi, h⟩ := Option.bind_eq_some_iff.mp h
      cases h
      have hbefore := Settings.raw_map_iff.mp (raw_of_get? he hget)
      exact raw_set he name (Settings.raw_map_iff.mpr (ih _ hbefore _ hi))
    · next items hget =>
      split at h
      · obtain ⟨inner, hi, h⟩ := Option.bind_eq_some_iff.mp h
        cases h
        cases raw_of_get? he hget with
        | list hall => exact raw_set he name (.list (changeLast_raw ih hall hi))
      · cases h
    · cases h

theorem setNew_raw (name : String) {v : Value} (hv : v.Raw isText) : KeepsRaw (setNew name v) := by
  intro entries he changed h
  rw [setNew] at h
  split at h
  · cases h
  · cases h
    exact raw_set he name hv

theorem appendTable_raw (name : String) : KeepsRaw (appendTable name) := by
  have hempty : (Value.map []).Raw isText := .map (List.forall_mem_nil _) (List.forall_mem_nil _)
  intro entries he changed h
  rw [appendTable] at h
  split at h
  · cases h
    exact raw_set he name (.list (List.forall_mem_singleton.mpr hempty))
  · next items hget =>
    cases h
    cases raw_of_get? he hget with
    | list hall =>
      refine raw_set he name (.list fun x hx => ?_)
      exact (List.mem_append.mp hx).elim (hall x) fun hx => List.mem_singleton.mp hx ▸ hempty
  · cases h

/-! ## Values -/

theorem InlineTable.raw_add {t next : InlineTable} (ht : t.entries.Raw isText) {k : Key} {v : Value} (hv : v.Raw isText)
    (h : t.add k v = .ok next) : next.entries.Raw isText := by
  unfold InlineTable.add at h
  split at h
  · cases h
  split at h
  · cases h
  · next entries hc =>
    cases h
    exact changeAt_raw false (setNew_raw _ hv) _ _ ht _ hc

theorem InlineTable.add_eq_error {t : InlineTable} {k : Key} {v : Value} {e : Error} (h : t.add k v = .error e) :
    e = .invalid := by
  unfold InlineTable.add at h
  split at h
  · cases h
    rfl
  split at h
  · cases h
    rfl
  · cases h

theorem InlineTable.seal_entries (t : InlineTable) (k : Key) (v : Value) : (t.seal k v).entries = t.entries := by
  unfold InlineTable.seal
  split <;> rfl

def ReadsBelow (n : Nat) : Prop :=
  ∀ cs : List Char, cs.length < n → ReadsFrom cs (Value.Raw isText) (value cs) ∧
    (∀ found : List Value, (∀ x ∈ found, x.Raw isText) → ReadsFrom cs (Value.Raw isText) (array found cs)) ∧
    ∀ t : InlineTable, t.entries.Raw isText → ReadsFrom cs (Value.Raw isText) (inlineTable t cs)

theorem value_reads_of (ih : ReadsBelow cs.length) : ReadsFrom cs (Value.Raw isText) (value cs) := by
  rw [value.eq_def]
  split
  · refine (quotedText_reads _).bind fun body after _ _ => ?_
    exact readsFrom_ok List.suffix_rfl (.text _)
  · refine (quotedText_reads _).bind fun body after _ _ => ?_
    exact readsFrom_ok List.suffix_rfl (.text _)
  · next rest =>
    refine ReadsFrom.mono (List.suffix_cons _ _) ((arrayGap_skips rest).reads fun inner hinner => ?_)
    split
    · exact readsFrom_ok (List.suffix_cons _ _) (.list (List.forall_mem_nil _))
    · split
      · next hle => exact (ih _ (Nat.lt_succ_of_le hle)).2.1 [] (List.forall_mem_nil _)
      · trivial
  · next rest =>
    have hgap := (List.dropWhile_suffix (l := rest) isGap).trans (List.suffix_cons '\x7b' rest)
    split
    · next h =>
      rw [h] at hgap
      exact readsFrom_ok ((List.suffix_cons _ _).trans hgap) (.map (List.forall_mem_nil _) (List.forall_mem_nil _))
    · split
      · next hle => exact ReadsFrom.mono hgap ((ih _ (Nat.lt_succ_of_le hle)).2.2 {} (List.forall_mem_nil _))
      · trivial
  · exact scalar_reads _

theorem array_reads_of (ih : ReadsBelow cs.length) {found : List Value} (hfound : ∀ x ∈ found, x.Raw isText) :
    ReadsFrom cs (Value.Raw isText) (array found cs) := by
  rw [array]
  refine (value_reads_of ih).bind fun item after hafter hitem => ?_
  have hmore : ∀ x ∈ found ++ [item], x.Raw isText := by
    intro x hx
    exact (List.mem_append.mp hx).elim (hfound x) fun hx => List.mem_singleton.mp hx ▸ hitem
  refine (arrayGap_skips after).reads fun next hnext => ?_
  split
  · exact readsFrom_ok (List.suffix_cons _ _) (.list hmore)
  · next rest =>
    refine ReadsFrom.mono (List.suffix_cons _ _) ((arrayGap_skips rest).reads fun last hlast => ?_)
    split
    · exact readsFrom_ok (List.suffix_cons _ _) (.list hmore)
    · split
      · next hlt => exact (ih _ hlt).2.1 _ hmore
      · trivial
  · trivial

theorem inlineTable_reads_of (ih : ReadsBelow cs.length) {t : InlineTable} (ht : t.entries.Raw isText) :
    ReadsFrom cs (Value.Raw isText) (inlineTable t cs) := by
  rw [inlineTable]
  refine (key_reads cs).bind fun k after hafter _ => ?_
  dsimp only
  split
  · next rest =>
    have hinner := (List.dropWhile_suffix (l := rest) isGap).trans (List.suffix_cons '=' rest)
    split
    · next hlt =>
      refine ReadsFrom.mono hinner ((ih _ hlt).1.bind fun item after _ hitem => ?_)
      have hgap := List.dropWhile_suffix (l := after) isGap
      cases hadd : t.add k item with
      | error e =>
        cases InlineTable.add_eq_error hadd
        trivial
      | ok t' =>
        have ht' := InlineTable.raw_add ht hitem hadd
        dsimp only [bind, Except.bind]
        split
        · next h =>
          rw [h] at hgap
          exact readsFrom_ok ((List.suffix_cons _ _).trans hgap) (Settings.raw_map_iff.mpr ht')
        · next rest h =>
          rw [h] at hgap
          have hrest := (List.dropWhile_suffix (l := rest) isGap).trans ((List.suffix_cons ',' rest).trans hgap)
          split
          · next hlt =>
            refine ReadsFrom.mono hrest ((ih _ hlt).2.2 _ ?_)
            rw [InlineTable.seal_entries]
            exact ht'
          · trivial
        · trivial
    · trivial
  · trivial

theorem readsBelow (n : Nat) : ReadsBelow n := by
  induction n with
  | zero => exact fun _ h => absurd h (Nat.not_lt_zero _)
  | succ n ih =>
    intro cs hcs
    have hbelow : ReadsBelow cs.length := fun ds hds => ih ds (Nat.lt_of_lt_of_le hds (Nat.le_of_lt_succ hcs))
    exact ⟨value_reads_of hbelow, fun _ => array_reads_of hbelow, fun _ => inlineTable_reads_of hbelow⟩

theorem value_reads (cs : List Char) : ReadsFrom cs (Value.Raw isText) (value cs) := value_reads_of (readsBelow _)

/-! ## Documents -/

namespace Reader

def Raw (r : Reader) : Prop := r.entries.Raw isText

theorem raw_change {r next : Reader} (hr : r.Raw) {k : Key} {c : Change} (hc : KeepsRaw c) (h : r.change k c = .ok next) :
    next.Raw := by
  unfold change at h
  split at h
  · cases h
  · next entries hchange =>
    cases h
    exact changeAt_raw true hc k _ hr _ hchange

theorem change_eq_error {r : Reader} {k : Key} {c : Change} {e : Error} (h : r.change k c = .error e) : e = .invalid := by
  unfold change at h
  split at h
  · cases h
    rfl
  · cases h

/-- After a change that may be refused, the text is read on. -/
theorem reads_of_change {r : Reader} (hr : r.Raw) {k : Key} {c : Change} (hc : KeepsRaw c)
    {f : Reader → Except Error (Reader × List Char)} (hf : ∀ next, next.Raw → ReadsFrom cs Raw (f next)) :
    ReadsFrom cs Raw (r.change k c >>= f) := by
  cases h : r.change k c with
  | error e =>
    cases change_eq_error h
    trivial
  | ok next => exact hf next (raw_change hr hc h)

theorem table_reads {r : Reader} (hr : r.Raw) (cs : List Char) : ReadsFrom cs Raw (r.table cs) := by
  unfold table
  refine ReadsFrom.mono (List.dropWhile_suffix isGap) ((key_reads _).bind fun k after _ _ => ?_)
  dsimp only
  split
  · trivial
  · have hkeeps : KeepsRaw some := by
      intro entries he changed h
      cases h
      exact he
    refine reads_of_change ?_ hkeeps fun next hnext => ?_
    · exact hr
    · split
      · exact readsFrom_ok (List.suffix_cons _ _) hnext
      · trivial

theorem arrayTable_reads {r : Reader} (hr : r.Raw) (cs : List Char) : ReadsFrom cs Raw (r.arrayTable cs) := by
  unfold arrayTable
  refine ReadsFrom.mono (List.dropWhile_suffix isGap) ((key_reads _).bind fun k after _ _ => ?_)
  dsimp only
  split
  · trivial
  · refine reads_of_change ?_ (appendTable_raw _) fun next hnext => ?_
    · exact hr
    · split
      · exact readsFrom_ok (List.suffix_append [']', ']'] _) hnext
      · trivial

theorem assignment_reads {r : Reader} (hr : r.Raw) (cs : List Char) : ReadsFrom cs Raw (r.assignment cs) := by
  unfold assignment
  refine (key_reads cs).bind fun k after hafter _ => ?_
  dsimp only
  split
  · next rest =>
    have hrest := (List.dropWhile_suffix (l := rest) isGap).trans (List.suffix_cons '=' rest)
    refine ReadsFrom.mono hrest ((value_reads _).bind fun item after _ hitem => ?_)
    dsimp only
    split
    · trivial
    dsimp only [bind, Except.bind, pure, Except.pure]
    split
    · trivial
    · refine reads_of_change ?_ (setNew_raw _ hitem) fun next hnext => ?_
      · exact hr
      · exact readsFrom_ok List.suffix_rfl hnext
  · trivial

theorem statement_reads {r : Reader} (hr : r.Raw) (cs : List Char) : ReadsFrom cs Raw (r.statement cs) := by
  unfold statement
  split
  · exact ReadsFrom.mono (List.suffix_append ['[', '['] _) (arrayTable_reads (by exact hr) _)
  · exact ReadsFrom.mono (List.suffix_cons _ _) (table_reads (by exact hr) _)
  · exact readsFrom_ok List.suffix_rfl hr
  · split
    · exact assignment_reads hr _
    · trivial
  · exact readsFrom_ok List.suffix_rfl hr

theorem run_completes {r : Reader} (hr : r.Raw) (cs : List Char) : Completes cs Raw (r.run cs) := by
  induction hn : cs.length using Nat.strong_induction_on generalizing r cs with
  | _ n ih =>
    subst hn
    have hgap := List.dropWhile_suffix (l := cs) isGap
    rw [run]
    split
    · exact hr
    · next rest h =>
      rw [h] at hgap
      split
      · next hlt => exact (ih _ hlt hr _ rfl).mono ((List.suffix_cons _ _).trans hgap)
      · trivial
    · next line hline _ =>
      refine Completes.mono hgap ((statement_reads hr _).complete fun next after _ hnext => ?_)
      have hafter := (comment_skips (after.dropWhile isGap)).mono (List.dropWhile_suffix _)
      refine hafter.complete fun last hlast => ?_
      split
      · exact hnext
      · split
        · next hlt => exact (ih _ hlt hnext _ rfl).mono (List.suffix_cons _ _)
        · trivial
      · trivial

end Reader

/-- What a document holds are values of a file, and it is refused for a reason in it. -/
theorem read_completes (text : List Char) : Completes (unifyLineEnds text) (Settings.Raw isText) (read text) := by
  have hrun := Reader.run_completes (r := {}) (List.forall_mem_nil _) (unifyLineEnds text)
  unfold read
  cases h : Reader.run {} (unifyLineEnds text) with
  | ok last =>
    rw [h] at hrun
    exact hrun
  | error e =>
    rw [h] at hrun
    exact hrun

end Toml

end Stanza
