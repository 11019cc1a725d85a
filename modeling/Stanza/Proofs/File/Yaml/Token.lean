import Mathlib.Data.List.TakeWhile
import Stanza.File.Yaml.Token
import Stanza.Proofs.File.Reader

/-! # Where YAML text breaks

Text that is not well formed is refused. The other reasons to break off are numbers: of an escape for no character, and
of a version that is too long. They stand in the text.
-/
namespace Stanza.Yaml

/-- A number in a text that cannot be read, and the fault that it leads to. -/
inductive BadNumber (cs : List Char) : Fault → Prop
  | escape {mark : Char} {digits : List Char} {fault : Fault} (h : '\\' :: mark :: digits <:+: cs)
    (hd : ∀ c ∈ digits, isHexDigit c = true)
    (hn : numberedChar (Text.natOfDigits 16 (digits.map digitOf)) = .error (.fault fault)) : BadNumber cs fault
  | version {digits : List Char} {e : Text.DigitLimitError} (h : digits <:+: cs) (hd : ∀ c ∈ digits, c.isDigit = true)
    (hn : Text.readDigits (digits.map digitOf) = .error e) : BadNumber cs (.rejected (.digitLimit e))

theorem BadNumber.mono {cs ds : List Char} {fault : Fault} (hs : cs <:+: ds) (h : BadNumber cs fault) :
    BadNumber ds fault := by
  cases h with
  | escape h hd hn => exact .escape (h.trans hs) hd hn
  | version h hd hn => exact .version (h.trans hs) hd hn

theorem BadNumber.isReported {cs : List Char} {fault : Fault} (h : BadNumber cs fault) : fault.isReported = false := by
  cases h with
  | version _ _ _ => rfl
  | escape _ _ hn =>
    unfold numberedChar at hn
    split at hn
    · cases hn
      rfl
    split at hn
    · cases hn
      rfl
    split at hn
    · cases hn
      rfl
    · cases hn

def Error.Because (reason : Fault → Prop) : Error → Prop
  | .invalid => True
  | .fault f => reason f

theorem Error.Because.mono {reason broader : Fault → Prop} (hr : ∀ f, reason f → broader f) :
    ∀ e : Error, e.Because reason → e.Because broader
  | .invalid, _ => trivial
  | .fault f, h => hr f h

instance : Caused Char Error where
  Of cs := Error.Because (BadNumber cs)
  mono hs h := Error.Because.mono (fun _ => BadNumber.mono hs.isInfix) _ h

/-- What breaks off does so because the text is not well formed, whatever the text. -/
abbrev Refuses {α : Type} (x : Except Error α) : Prop := Completes ([] : List Char) Anything x

theorem Refuses.completes {α : Type} {x : Except Error α} (h : Refuses x) (cs : List Char) : Completes cs Anything x :=
  Completes.mono List.nil_suffix h

/-! ## Names -/

theorem restOfLine_refuses (cs : List Char) : Refuses (restOfLine cs) := by
  unfold restOfLine
  dsimp only
  split <;> split <;> trivial

theorem anchorName_refuses (cs : List Char) : Refuses (anchorName cs) := by
  unfold anchorName
  dsimp only
  split <;> trivial

theorem uriBytes_refuses (cs : List Char) : Refuses (uriBytes cs) := by
  fun_induction uriBytes cs with
  | case1 a b rest _ ih => exact Except.Ends.bind ih fun _ _ => trivial
  | case2 | case3 | case4 => trivial

theorem uriChars_refuses (cs : List Char) : Refuses (uriChars cs) := by
  induction hn : cs.length using Nat.strong_induction_on generalizing cs with
  | _ n ih =>
    subst hn
    rw [uriChars.eq_def]
    split
    · trivial
    · next c rest =>
      split
      · refine Except.Ends.bind (uriBytes_refuses _) fun p _ => ?_
        dsimp only
        split
        · trivial
        · split
          · next hle => exact Except.Ends.bind (ih _ (Nat.lt_succ_of_le hle) _ rfl) fun _ _ => trivial
          · trivial
      · split
        · exact Except.Ends.bind (ih _ (Nat.lt_succ_self _) _ rfl) fun _ _ => trivial
        · trivial

theorem uri_refuses (cs : List Char) : Refuses (uri cs) := by
  unfold uri
  refine Except.Ends.bind (uriChars_refuses cs) fun p _ => ?_
  dsimp only
  split <;> trivial

theorem handle_refuses (cs : List Char) : Refuses (handle cs) := by
  unfold handle
  split
  · split
    · trivial
    · split <;> trivial
  · trivial

theorem tagName_refuses (cs : List Char) : Refuses (tagName cs) := by
  have hlast : ∀ p : TagName × List Char,
      Refuses (if atSpace p.2 = true then .ok (p.1, p.2) else .error .invalid : Except Error (TagName × List Char)) := by
    intro p
    split <;> trivial
  have hsuffix : ∀ h cs, Refuses (do
      let p ← uri cs
      if atSpace p.2 = true then .ok ((⟨some h, p.1⟩ : TagName), p.2) else .error .invalid) :=
    fun h cs => Except.Ends.bind (uri_refuses cs) fun p _ => hlast (⟨some h, p.1⟩, p.2)
  unfold tagName
  dsimp only
  split
  · refine Except.Ends.bind (uri_refuses _) fun p _ => ?_
    split
    · exact hlast (⟨none, p.1⟩, _)
    · trivial
  · split
    · exact hlast (⟨none, "!"⟩, _)
    · split
      · exact Except.Ends.bind (handle_refuses _) fun p _ => hsuffix p.1 p.2
      · exact hsuffix "!" _

theorem directiveNumber_reads (cs : List Char) : ReadsFrom cs Anything (directiveNumber cs) := by
  unfold directiveNumber
  dsimp only
  split
  · trivial
  · cases hn : Text.readDigits ((cs.takeWhile Char.isDigit).map digitOf) with
    | ok n => exact readsFrom_ok (List.dropWhile_suffix _) trivial
    | error e => exact .version (List.takeWhile_prefix _).isInfix (fun _ hc => List.mem_takeWhile_imp hc) hn

theorem versionNumber_reads (cs : List Char) : ReadsFrom cs Anything (versionNumber cs) := by
  refine (directiveNumber_reads cs).bind fun major after _ _ => ?_
  dsimp only
  split
  · refine ReadsFrom.mono (List.suffix_cons _ _) ((directiveNumber_reads _).bind fun minor last _ _ => ?_)
    dsimp only
    split
    · exact readsFrom_ok List.suffix_rfl trivial
    · trivial
  · trivial

theorem handleMeaning_refuses (cs : List Char) : Refuses (handleMeaning cs) := by
  unfold handleMeaning
  refine Except.Ends.bind (handle_refuses cs) fun p _ => ?_
  dsimp only
  split
  · trivial
  · refine Except.Ends.bind (uri_refuses _) fun q _ => ?_
    split <;> trivial

theorem directive_completes (cs : List Char) : Completes cs Anything (directive cs) := by
  have hlast : ∀ p : Directive × List Char,
      Completes cs Anything (do return (p.1, ← restOfLine p.2) : Except Error (Directive × List Char)) :=
    fun p => Except.Ends.bind ((restOfLine_refuses p.2).completes cs) fun _ _ => trivial
  have hvalue : (cs.dropWhile isNameChar).dropWhile (· == ' ') <:+ cs :=
    (List.dropWhile_suffix _).trans (List.dropWhile_suffix _)
  unfold directive
  dsimp only
  split
  · trivial
  · split
    · exact Except.Ends.bind ((versionNumber_reads _).mono hvalue) fun p _ => hlast p
    · exact Except.Ends.bind ((handleMeaning_refuses _).completes cs) fun p _ => hlast p
    · exact hlast (.other, _)

/-! ## Texts -/

theorem quotedLineEnds_reads (atStart : Bool) (cs : List Char) : ReadsFrom cs Anything (quotedLineEnds atStart cs) := by
  fun_induction quotedLineEnds atStart cs with
  | case1 => exact readsFrom_ok List.suffix_rfl trivial
  | case2 => trivial
  | case3 _ _ _ _ _ ih => exact ih.mono (List.suffix_cons _ _)
  | case4 _ _ _ _ _ _ ih =>
    refine ReadsFrom.mono (List.suffix_cons _ _) (ih.bind fun ends after _ _ => ?_)
    exact readsFrom_ok List.suffix_rfl trivial
  | case5 => exact readsFrom_ok List.suffix_rfl trivial

theorem quotedGap_reads (cs : List Char) : ReadsFrom cs Anything (quotedGap cs) := by
  have hgap := List.dropWhile_suffix (l := cs) isGap
  unfold quotedGap
  split
  · trivial
  · next c rest h =>
    rw [h] at hgap
    split
    · refine ReadsFrom.mono ((List.suffix_cons _ _).trans hgap) ?_
      refine (quotedLineEnds_reads true rest).bind fun more after _ _ => ?_
      exact readsFrom_ok List.suffix_rfl trivial
    · exact readsFrom_ok hgap trivial

/-- The digits of an escape stand after its mark. -/
theorem hexEscape_reads (count : Nat) (mark : Char) (cs : List Char) :
    ReadsFrom ('\\' :: mark :: cs) Anything (hexEscape count cs) := by
  unfold hexEscape
  dsimp only
  split
  · trivial
  · next h =>
    simp only [Bool.or_eq_true, Bool.not_eq_true', not_or, Bool.not_eq_false] at h
    have hdigits := List.all_eq_true.mp h.2
    cases hn : numberedChar (Text.natOfDigits 16 ((cs.take count).map digitOf)) with
    | ok c => exact readsFrom_ok ((List.drop_suffix _ _).trans (List.suffix_append ['\\', mark] cs)) trivial
    | error e =>
      cases e with
      | invalid => trivial
      | fault fault =>
        have hprefix : '\\' :: mark :: cs.take count <+: '\\' :: mark :: cs :=
          List.prefix_cons_inj _ |>.mpr (List.prefix_cons_inj _ |>.mpr (List.take_prefix _ _))
        exact .escape hprefix.isInfix hdigits hn

theorem escape_reads (cs : List Char) : ReadsFrom ('\\' :: cs) Anything (escape cs) := by
  unfold escape
  split
  · trivial
  · next c rest =>
    have hrest : rest <:+ '\\' :: c :: rest := List.suffix_append ['\\', c] rest
    split
    · exact readsFrom_ok hrest trivial
    split
    · exact hexEscape_reads 2 c rest
    split
    · exact hexEscape_reads 4 c rest
    split
    · exact hexEscape_reads 8 c rest
    split
    · exact ReadsFrom.mono hrest (quotedLineEnds_reads true rest)
    · trivial

theorem quotedText_reads (quote : Char) (found cs : List Char) : ReadsFrom cs Anything (quotedText quote found cs) := by
  induction hn : cs.length using Nat.strong_induction_on generalizing found cs with
  | _ n ih =>
    subst hn
    rw [quotedText.eq_def]
    split
    · trivial
    · next c rest =>
      have hgoOn : ∀ part : Except Error (List Char × List Char), ReadsFrom (c :: rest) Anything part →
          ReadsFrom (c :: rest) Anything (do
            let p ← part
            if p.2.length ≤ rest.length then quotedText quote (found ++ p.1) p.2 else throw .invalid) := by
        intro part hpart
        refine hpart.bind fun text after _ _ => ?_
        dsimp only
        split
        · next hle => exact ih _ (Nat.lt_succ_of_le hle) _ _ rfl
        · trivial
      dsimp only
      split
      · split
        · exact hgoOn _ (readsFrom_ok ((List.drop_suffix _ _).trans (List.suffix_cons _ _)) trivial)
        · exact readsFrom_ok (List.suffix_cons _ _) trivial
      split
      · next hc =>
        simp only [Bool.and_eq_true, beq_iff_eq] at hc
        refine hgoOn _ ?_
        rw [hc.1]
        exact escape_reads rest
      split
      · exact hgoOn _ (quotedGap_reads _)
      · exact hgoOn _ (readsFrom_ok (List.suffix_cons _ _) trivial)

theorem blockMark_refuses (cs : List Char) : Refuses (blockMark cs) := by
  have hstep : ∀ (m : BlockMark) cs, Refuses (m.readStep cs) := by
    intro m cs
    unfold BlockMark.readStep
    split
    · split
      · trivial
      · split <;> trivial
    · trivial
  unfold blockMark
  refine Except.Ends.bind (hstep _ _) fun p _ => ?_
  dsimp only
  split
  all_goals
    split
    · trivial
    · refine Except.Ends.bind (restOfLine_refuses _) fun rest _ => ?_
      trivial

theorem blockText_refuses (folded : Bool) (least : Nat) (cs : List Char) : Refuses (blockText folded least cs) := by
  unfold blockText
  exact Except.Ends.bind (blockMark_refuses cs) fun _ _ => trivial

/-! ## Layouts -/

def Token.isBroken : Token → Bool
  | .broken _ => true
  | _ => false

namespace Layout

structure Fine (text : List Char) (l : Layout) : Prop where
  rest : l.cursor.rest <:+ text
  unbroken : ∀ t ∈ l.tokens, t.isBroken = false

variable {text : List Char} {l : Layout} {t : Token}

theorem skip_suffix (p : Cursor) (n : Nat) : (p.skip n).rest <:+ p.rest := by
  induction n generalizing p with
  | zero => exact List.suffix_rfl
  | succ n ih =>
    have hstep : p.step.rest <:+ p.rest := by
      unfold Cursor.step
      split
      · exact List.suffix_rfl
      · next c rest h =>
        rw [h]
        split <;> exact List.suffix_cons _ _
    exact (ih p.step).trans hstep

theorem Fine.goTo (hl : l.Fine text) (rest : List Char) : (l.goTo rest).Fine text where
  rest := (skip_suffix _ _).trans hl.rest
  unbroken := hl.unbroken

theorem Fine.push (hl : l.Fine text) (ht : t.isBroken = false) : (l.push t).Fine text where
  rest := hl.rest
  unbroken := List.forall_mem_cons.mpr ⟨ht, hl.unbroken⟩

theorem Fine.mark (hl : l.Fine text) (ht : t.isBroken = false) : (l.mark t).Fine text := (hl.goTo _).push ht

theorem Fine.insert (hl : l.Fine text) (place : Nat) (ht : t.isBroken = false) : (l.insert place t).Fine text where
  rest := hl.rest
  unbroken := by
    intro u hu
    obtain rfl | hu := (List.mem_insertIdx (Nat.sub_le _ _)).mp hu
    · exact ht
    · exact hl.unbroken u hu

theorem Fine.closeBlocks (hl : l.Fine text) (inside : Nat → Bool) : (l.closeBlocks inside).Fine text where
  rest := hl.rest
  unbroken := by
    intro u hu
    obtain hu | hu := List.mem_append.mp hu
    · obtain ⟨_, _, rfl⟩ := List.mem_map.mp hu
      rfl
    · exact hl.unbroken u hu

/-! ## Actions -/

theorem dropCandidate_completes (hl : l.Fine text) : Completes text (Fine text) l.dropCandidate := by
  unfold dropCandidate
  split
  · trivial
  · exact ⟨hl.rest, hl.unbroken⟩

theorem addCandidate_completes (hl : l.Fine text) : Completes text (Fine text) l.addCandidate := by
  unfold addCandidate
  split
  · refine Except.Ends.bind (dropCandidate_completes hl) fun l' hl' => ?_
    exact ⟨hl'.rest, hl'.unbroken⟩
  · exact hl

theorem dropStale_completes (hl : l.Fine text) : Completes text (Fine text) l.dropStale := by
  unfold dropStale
  split
  · trivial
  · exact ⟨hl.rest, hl.unbroken⟩

theorem toToken_completes (hl : l.Fine text) : Completes text (Fine text) l.toToken := by
  unfold toToken
  refine Except.Ends.bind (dropStale_completes ?_) fun l' hl' => ?_
  · exact ⟨(hl.goTo _).rest, hl.unbroken⟩
  · by_cases h : l'.inFlow = true
    · rw [if_pos h]
      exact hl'
    · rw [if_neg h]
      exact hl'.closeBlocks _

theorem closeAll_completes (hl : l.Fine text) : Completes text (Fine text) l.closeAll := by
  have hclosed : (if l.inFlow then l else l.closeBlocks fun _ => true).Fine text := by
    split
    · exact hl
    · exact hl.closeBlocks _
  unfold closeAll
  refine Except.Ends.bind (dropCandidate_completes hclosed) fun l' hl' => ?_
  exact ⟨hl'.rest, hl'.unbroken⟩

theorem openBlock_completes (hl : l.Fine text) (ht : t.isBroken = false) : Completes text (Fine text) (l.openBlock t) := by
  unfold openBlock
  split
  · exact hl
  split
  · trivial
  split
  · have hpush := hl.push ht
    exact ⟨hpush.rest, hpush.unbroken⟩
  · exact hl

theorem openFlow_completes (hl : l.Fine text) (ht : t.isBroken = false) : Completes text (Fine text) (l.openFlow t) := by
  unfold openFlow
  refine Except.Ends.bind (addCandidate_completes hl) fun l' hl' => ?_
  refine Fine.mark ?_ ht
  exact ⟨hl'.rest, hl'.unbroken⟩

theorem closeFlow_completes (hl : l.Fine text) (ht : t.isBroken = false) : Completes text (Fine text) (l.closeFlow t) := by
  unfold closeFlow
  split
  · trivial
  · refine Except.Ends.bind (dropCandidate_completes hl) fun l' hl' => ?_
    refine Fine.mark ?_ ht
    exact ⟨hl'.rest, hl'.unbroken⟩

theorem comma_completes (hl : l.Fine text) : Completes text (Fine text) l.comma := by
  unfold comma
  refine Except.Ends.bind (dropCandidate_completes ⟨hl.rest, hl.unbroken⟩) fun l' hl' => ?_
  exact hl'.mark rfl

/-- The marks of entries, keys and values: a block may be opened, and keys may start or not. -/
theorem blockMark_completes (hl : l.Fine text) {opening t : Token} (ho : opening.isBroken = false) (ht : t.isBroken = false)
    (allowed : Layout → Bool) : Completes text (Fine text) (do
      let l ← l.openBlock opening
      let l ← { l with keyAllowed := allowed l }.dropCandidate
      return l.mark t) := by
  refine Except.Ends.bind (openBlock_completes hl ho) fun l' hl' => ?_
  refine Except.Ends.bind (dropCandidate_completes ⟨hl'.rest, hl'.unbroken⟩) fun next hnext => ?_
  exact hnext.mark ht

theorem entry_completes (hl : l.Fine text) : Completes text (Fine text) l.entry :=
  blockMark_completes hl rfl rfl fun _ => true

theorem key_completes (hl : l.Fine text) : Completes text (Fine text) l.key :=
  blockMark_completes hl rfl rfl fun l => !l.inFlow

theorem value_completes (hl : l.Fine text) : Completes text (Fine text) l.value := by
  unfold value
  split
  · next k _ =>
    have hkey : ({ l with candidates := l.candidates.filter (·.depth != l.depth), keyAllowed := false }.insert
        k.place .key).Fine text := by
      refine Fine.insert ?_ _ rfl
      exact ⟨hl.rest, hl.unbroken⟩
    refine Fine.mark ?_ rfl
    split
    · have hmapping := hkey.insert (t := .blockMapping) k.place rfl
      exact ⟨hmapping.rest, hmapping.unbroken⟩
    · exact hkey
  · exact blockMark_completes hl rfl rfl fun l => !l.inFlow

theorem named_completes (hl : l.Fine text) {read : List Char → Except Error (Token × List Char)}
    (hr : ∀ cs, Completes cs (fun p => p.1.isBroken = false) (read cs)) : Completes text (Fine text) (l.named read) := by
  unfold named
  refine Except.Ends.bind (addCandidate_completes hl) fun l' hl' => ?_
  refine Except.Ends.bind ((hr _).mono ((List.drop_suffix _ _).trans hl'.rest)) fun p hp => ?_
  refine Fine.push (Fine.goTo ?_ _) hp
  exact ⟨hl'.rest, hl'.unbroken⟩

theorem block_completes (hl : l.Fine text) (folded : Bool) : Completes text (Fine text) (l.block folded) := by
  unfold block
  refine Except.Ends.bind (dropCandidate_completes ⟨hl.rest, hl.unbroken⟩) fun l' hl' => ?_
  refine Except.Ends.bind ((blockText_refuses _ _ _).completes text) fun p _ => ?_
  exact (hl'.goTo _).push rfl

theorem plain_completes (hl : l.Fine text) : Completes text (Fine text) l.plain := by
  unfold plain
  refine Except.Ends.bind (addCandidate_completes hl) fun l' hl' => ?_
  refine Fine.push (Fine.goTo ?_ _) rfl
  exact ⟨hl'.rest, hl'.unbroken⟩

theorem documentMark_completes (hl : l.Fine text) (ht : t.isBroken = false) :
    Completes text (Fine text) (l.documentMark t) := by
  unfold documentMark
  refine Except.Ends.bind (closeAll_completes hl) fun l' hl' => ?_
  exact (hl'.goTo _).push ht

theorem directiveLine_completes (hl : l.Fine text) : Completes text (Fine text) l.directiveLine := by
  unfold directiveLine
  refine Except.Ends.bind (closeAll_completes hl) fun l' hl' => ?_
  refine Except.Ends.bind (Completes.mono ((List.drop_suffix _ _).trans hl'.rest) (directive_completes _)) fun p _ => ?_
  exact (hl'.goTo _).push rfl

theorem token_completes (hl : l.Fine text) (c : Char) (rest : List Char) : Completes text (Fine text) (l.token c rest) := by
  unfold token
  refine Except.ends_ite (directiveLine_completes hl) ?_
  refine Except.ends_ite (documentMark_completes hl rfl) ?_
  refine Except.ends_ite (documentMark_completes hl rfl) ?_
  refine Except.ends_ite (openFlow_completes hl rfl) ?_
  refine Except.ends_ite (openFlow_completes hl rfl) ?_
  refine Except.ends_ite (closeFlow_completes hl rfl) ?_
  refine Except.ends_ite (closeFlow_completes hl rfl) ?_
  refine Except.ends_ite (comma_completes hl) ?_
  refine Except.ends_ite (entry_completes hl) ?_
  refine Except.ends_ite (key_completes hl) ?_
  refine Except.ends_ite (value_completes hl) ?_
  refine Except.ends_ite (named_completes hl fun cs => ?_) ?_
  · exact Except.Ends.bind ((anchorName_refuses cs).completes cs) fun _ _ => rfl
  refine Except.ends_ite (named_completes hl fun cs => ?_) ?_
  · exact Except.Ends.bind ((anchorName_refuses cs).completes cs) fun _ _ => rfl
  refine Except.ends_ite (named_completes hl fun cs => ?_) ?_
  · exact Except.Ends.bind ((tagName_refuses cs).completes cs) fun _ _ => rfl
  refine Except.ends_ite (block_completes hl _) ?_
  refine Except.ends_ite (named_completes hl fun cs => ?_) ?_
  · exact Except.Ends.bind (quotedText_reads c [] cs) fun _ _ => rfl
  refine Except.ends_ite (plain_completes hl) ?_
  trivial

/-- A text breaks off for a reason that is found in it. -/
theorem of_broken_mem_run (hl : l.Fine text) {e : Error} (he : .broken e ∈ l.run.tokens) : Caused.Of text e := by
  have hbreak : ∀ {l : Layout} {d : Error}, l.Fine text → .broken e ∈ (l.push (.broken d)).tokens → e = d := by
    intro l d hl he
    obtain h | h := List.mem_cons.mp he
    · exact Token.broken.inj h
    · cases hl.unbroken _ h
  fun_induction run l with
  | case1 l d h =>
    rw [hbreak hl he]
    exact (toToken_completes hl).error h
  | case2 l next h hrest d hd =>
    have hnext := (toToken_completes hl).ok h
    rw [hbreak hnext he]
    exact (closeAll_completes hnext).error hd
  | case3 l next h hrest last hlast =>
    have hclosed := (closeAll_completes ((toToken_completes hl).ok h)).ok hlast
    cases (hclosed.push (t := .streamEnd) rfl).unbroken _ he
  | case4 l next h c rest hrest d hd =>
    have hnext := (toToken_completes hl).ok h
    rw [hbreak hnext he]
    exact (token_completes hnext c rest).error hd
  | case5 l next h c rest hrest l' hl' hlt ih =>
    have hnext := (toToken_completes hl).ok h
    exact ih ((token_completes hnext c rest).ok hl') he
  | case6 l next h c rest hrest l' hl' hlt =>
    rw [hbreak ((toToken_completes hl).ok h) he]
    trivial

end Layout

theorem of_broken_mem_tokens {text : List Char} {e : Error} (h : .broken e ∈ tokens text) : Caused.Of text e :=
  Layout.of_broken_mem_run ⟨List.suffix_rfl, fun _ ht => absurd ht List.not_mem_nil⟩ (List.mem_reverse.mp h)

end Stanza.Yaml
