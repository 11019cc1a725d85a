import Mathlib.Tactic.MkIffOfInductiveProp
import Stanza.File.Ini
import Stanza.Proofs.Logged
import Stanza.Proofs.Settings
import Stanza.Proofs.Text.Blank
import Stanza.Proofs.Text.Lines

/-! # INI files written and read

Sections that are written line by line, with a blank line between two of them, are read as they were written. A blank
line goes into the value of the option before it and is trimmed there; all other lines are headers or options, since no
line starts with a blank or with a mark of a comment.
-/
namespace Stanza.Ini

open Text

def OneLine (s : String) : Prop := '\n' ∉ s.toList ∧ '\r' ∉ s.toList

instance (s : String) : Decidable (OneLine s) := inferInstanceAs (Decidable (_ ∧ _))

/-- A name of an option that is read as it is written. -/
@[mk_iff]
structure CleanName (name : String) : Prop where
  ne : name ≠ ""
  line : OneLine name
  undelimited : '=' ∉ name.toList ∧ ':' ∉ name.toList
  trimmed : trim name.toList = name.toList
  head : name.toList.head? ∉ [some '#', some ';', some '[']

instance (name : String) : Decidable (CleanName name) := decidable_of_iff' _ (cleanName_iff name)

/-- A section as it is written: its heading, and its options with the texts of their values. -/
structure Written where
  heading : String
  options : List (String × String)

namespace Written

def settings (w : Written) : Settings := w.options.map fun o => (.text o.1, .text o.2)

/-- Headings, names and values that are read as they are written. -/
@[mk_iff]
structure Clean (w : Written) : Prop where
  heading_ne : w.heading ≠ ""
  heading_line : OneLine w.heading
  unshared : w.heading ≠ sharedHeading
  distinct : (w.options.map Prod.fst).Nodup
  name : ∀ o ∈ w.options, CleanName o.1
  text : ∀ o ∈ w.options, OneLine o.2 ∧ trim o.2.toList = o.2.toList

instance (w : Written) : Decidable w.Clean := decidable_of_iff' _ (clean_iff w)

end Written

def headerLine (heading : String) : List Char := '[' :: (heading.toList ++ [']'])

def optionLine (o : String × String) : List Char := o.1.toList ++ ' ' :: '=' :: ' ' :: o.2.toList

/-! ## Single lines -/

theorem isComment_of_head {line : List Char} {c : Char} (hl : line.head? = some c) (hb : isBlank c = false)
    (hc : c ≠ '#' ∧ c ≠ ';') : isComment line = false := by
  cases line with
  | nil => cases hl
  | cons d rest =>
    obtain rfl := Option.some.inj hl
    rw [isComment, List.dropWhile_cons_of_neg (by simp [hb])]
    split
    · next h => exact absurd (List.cons.inj h).1 hc.1
    · next h => exact absurd (List.cons.inj h).1 hc.2
    · rfl

theorem heading?_of_head {line : List Char} {c : Char} (hl : line.head? = some c) (hc : c ≠ '[') :
    heading? line = none := by
  cases line with
  | nil => rfl
  | cons d rest =>
    obtain rfl := Option.some.inj hl
    rw [heading?]
    exact fun _ h => hc (List.cons.inj h).1

theorem trim_headerLine (heading : String) : trim (headerLine heading ++ ['\n']) = headerLine heading := by
  have hopen : isBlank '[' = false := by decide
  have hclose : isBlank ']' = false := by decide
  have hfeed : trimEnd ['\n'] = [] := by decide
  have hstart : trimStart (headerLine heading ++ ['\n']) = '[' :: (heading.toList ++ ']' :: ['\n']) := by
    rw [headerLine, List.cons_append, List.append_assoc]
    exact List.dropWhile_cons_of_neg (by simp [hopen])
  rw [trim, hstart, ← List.cons_append, trimEnd_append_cons _ hclose, hfeed]
  rfl

theorem heading?_headerLine {heading : String} (hne : heading ≠ "") :
    heading? (headerLine heading) = some heading.toList := by
  have hnil : heading.toList ≠ [] := by simpa using hne
  have hrev : ((heading.toList ++ [']']).reverse.dropWhile (· != ']')) = ']' :: heading.toList.reverse := by
    rw [List.reverse_append]
    rfl
  rw [headerLine, heading?, hrev]
  simp [hnil]

section

variable {r : Reader} {source : SourceLine} {heading : String} {o : String × String}

theorem step_blank (hs : source.text.toList = ['\n']) :
    r.step source = .ok (if r.isOpen then r.extendValue "" else r) := by
  have hc : isComment ['\n'] = false := by decide
  have ht : trim ['\n'] = [] := by decide
  rw [Reader.step, hs]
  simp only [hc, ht]
  rfl

/-- A line that starts neither with a blank nor with a mark of a comment does not continue a value. -/
theorem step_of_head {line : List Char} {c : Char} (hl : source.text.toList.head? = some c) (hb : isBlank c = false)
    (hc : c ≠ '#' ∧ c ≠ ';') (ht : trim source.text.toList = line) (hne : line ≠ []) :
    r.step source = { r with indent := 0 }.start source line := by
  have hindent : source.text.toList.takeWhile isBlank = [] := by
    cases h : source.text.toList with
    | nil => rfl
    | cons d rest =>
      rw [h] at hl
      obtain rfl := Option.some.inj hl
      exact List.takeWhile_cons_of_neg (by simp [hb])
  rw [Reader.step, isComment_of_head hl hb hc, ht, hindent]
  cases line with
  | nil => exact absurd rfl hne
  | cons d rest => simp

theorem step_header (hne : heading ≠ "") (hs : source.text.toList = headerLine heading ++ ['\n']) :
    r.step source = { r with indent := 0 }.openSection source.number heading := by
  have ht : trim source.text.toList = headerLine heading := by rw [hs, trim_headerLine]
  rw [step_of_head (by rw [hs]; rfl) (by decide) (by decide) ht (List.cons_ne_nil _ _), Reader.start,
    heading?_headerLine hne]
  dsimp only
  rw [String.ofList_toList]

/-- The first delimiter ends the name, and what follows it is the value. -/
theorem trim_optionLine (hn : CleanName o.1) : trim (optionLine o ++ ['\n']) =
    o.1.toList ++ ' ' :: '=' :: trimEnd (' ' :: (o.2.toList ++ ['\n'])) := by
  have hne : o.1.toList ≠ [] := by simpa using hn.ne
  have hequals : isBlank '=' = false := by decide
  have hline : optionLine o ++ ['\n'] = o.1.toList ++ ' ' :: '=' :: ' ' :: (o.2.toList ++ ['\n']) := by
    simp [optionLine]
  rw [hline, trim, trimStart_append (trimStart_of_trim hn.trimmed) hne, List.append_cons, trimEnd_append_cons _ hequals]
  simp

theorem option?_optionLine (hn : CleanName o.1) (ht : trim o.2.toList = o.2.toList) :
    option? (trim (optionLine o ++ ['\n'])) = some (o.1.toList, o.2.toList) := by
  have hname : ∀ c ∈ o.1.toList ++ [' '], (!isDelimiter c) = true := by
    intro c hc
    rcases List.mem_append.mp hc with hc | hc
    · simpa [isDelimiter] using ⟨fun h => hn.undelimited.1 (h ▸ hc), fun h => hn.undelimited.2 (h ▸ hc)⟩
    · rw [List.mem_singleton.mp hc]
      decide
  have hdrop : ∀ rest, List.dropWhile (!isDelimiter ·) ('=' :: rest) = '=' :: rest := fun _ => rfl
  have htake : ∀ rest, List.takeWhile (!isDelimiter ·) ('=' :: rest) = [] := fun _ => rfl
  have hspace : isBlank ' ' = true := by decide
  rw [trim_optionLine hn, List.append_cons, option?, List.dropWhile_append_of_pos hname,
    List.takeWhile_append_of_pos hname, hdrop, htake]
  dsimp only
  rw [trim_trimEnd_between ht hspace (by decide), List.append_nil, trimEnd_concat _ hspace, trimEnd_of_trim hn.trimmed]

theorem step_option {b : Block} (hb : r.current = some b) (hn : CleanName o.1) (ht : trim o.2.toList = o.2.toList)
    (hs : source.text.toList = optionLine o ++ ['\n']) :
    r.step source = { r with indent := 0 }.addOption b source.number o.1 o.2 := by
  have hne : o.1.toList ≠ [] := by simpa using hn.ne
  have hhead : ∀ rest, (o.1.toList ++ rest).head? = some (o.1.toList.head hne) :=
    fun rest => by rw [List.head?_append, List.head?_eq_some_head hne]; rfl
  obtain ⟨hhash, hsemicolon, hbracket⟩ : o.1.toList.head hne ≠ '#' ∧ o.1.toList.head hne ≠ ';' ∧
      o.1.toList.head hne ≠ '[' := by simpa [List.head?_eq_some_head hne] using hn.head
  have hblank := isBlank_head_of_trim hn.trimmed hne
  have hfirst : source.text.toList.head? = some (o.1.toList.head hne) := by
    rw [hs, optionLine, List.append_assoc, hhead]
  have hline : trim source.text.toList = o.1.toList ++ _ := hs ▸ trim_optionLine hn
  rw [step_of_head hfirst hblank ⟨hhash, hsemicolon⟩ hline (by simp), Reader.start, heading?_of_head (hhead _) hbracket]
  dsimp only
  rw [hb, ← trim_optionLine hn, option?_optionLine hn ht]
  simp [hne]

end

/-! ## What has been read -/

theorem valueOf_singleton {s : String} (h : trim s.toList = s.toList) : valueOf [s] = .text s := by
  have hone : "\n".intercalate [s] = s := by simp
  rw [valueOf, List.reverse_singleton, hone, trimEnd_of_trim h, String.ofList_toList]

/-- A blank line at the end of a value does not count. -/
theorem valueOf_cons_empty (lines : List String) : valueOf ("" :: lines) = valueOf lines := by
  have hfeed : isBlank '\n' = true := by decide
  rw [valueOf, valueOf, List.reverse_cons]
  cases hl : lines.reverse with
  | nil => rfl
  | cons line rest =>
    have hlines : ("\n".intercalate (line :: rest ++ [""])).toList =
        ("\n".intercalate (line :: rest)).toList ++ ['\n'] := by
      rw [String.intercalate_append_of_ne_nil (List.cons_ne_nil _ _) (List.cons_ne_nil _ _),
        String.intercalate_singleton, String.append_empty, String.toList_append]
      rfl
    rw [hlines, trimEnd_concat _ hfeed]

structure Block.Holds (b : Block) (w : Written) : Prop where
  heading : b.heading = w.heading
  options : List.Forall₂ (fun o t => o.1 = t.1 ∧ valueOf o.2 = .text t.2) b.options w.options

namespace Reader

structure Holds (r : Reader) (sections : List Written) : Prop where
  bad : r.bad = []
  defaults : r.finish.defaults = []
  done : List.Forall₂ Block.Holds r.finish.done.reverse sections

structure Within (r : Reader) (sections : List Written) (w : Written) : Prop where
  bad : r.bad = []
  defaults : r.defaults = []
  done : List.Forall₂ Block.Holds r.done.reverse sections
  current : ∃ b, r.current = some b ∧ b.Holds w

variable {r : Reader} {sections : List Written} {w : Written}

theorem Within.holds (h : r.Within sections w) (hw : w.heading ≠ sharedHeading) : r.Holds (sections ++ [w]) := by
  obtain ⟨b, hb, hholds⟩ := h.current
  have hne : (b.heading == sharedHeading) = false := by simpa [hholds.heading] using hw
  have hfinish : r.finish = { r with done := b :: r.done, current := none } := by
    rw [Reader.finish, hb]
    simp [hne]
  refine ⟨h.bad, by rw [hfinish]; exact h.defaults, ?_⟩
  rw [hfinish, List.reverse_cons]
  exact List.rel_append h.done (.cons hholds .nil)

theorem finish_indent (r : Reader) (n : Nat) :
    ({ r with indent := n } : Reader).finish = { r.finish with indent := n } := by
  unfold Reader.finish
  dsimp only
  split
  · rfl
  · split <;> rfl

theorem bad_finish (r : Reader) : r.finish.bad = r.bad := by
  unfold Reader.finish
  split
  · rfl
  · split <;> rfl

/-- A header opens a section that has no options yet. -/
theorem Holds.step_header (h : r.Holds sections) (hc : w.Clean) (hnew : w.heading ∉ sections.map Written.heading)
    {source : SourceLine} (hs : source.text.toList = headerLine w.heading ++ ['\n']) :
    ∃ out, r.step source = .ok out ∧ out.Within sections ⟨w.heading, []⟩ := by
  have hnone : r.finish.done.any (·.heading == w.heading) = false := by
    rw [List.any_eq_false]
    intro b hb
    obtain ⟨v, hv, hholds⟩ := h.done.exists_of_mem_left (List.mem_reverse.mpr hb)
    rw [hholds.heading, beq_iff_eq]
    exact fun heq => hnew (heq ▸ List.mem_map_of_mem hv)
  have hunshared : (w.heading == sharedHeading) = false := by simpa using hc.unshared
  rw [Ini.step_header hc.heading_ne hs, Reader.openSection, finish_indent]
  simp only [hunshared, hnone]
  exact ⟨_, rfl, (bad_finish r).trans h.bad, h.defaults, h.done, _, rfl, rfl, .nil⟩

theorem Within.step_option (h : r.Within sections w) {o : String × String} (hn : CleanName o.1)
    (ht : trim o.2.toList = o.2.toList) (hnew : o.1 ∉ w.options.map Prod.fst) {source : SourceLine}
    (hs : source.text.toList = optionLine o ++ ['\n']) :
    ∃ out, r.step source = .ok out ∧ out.Within sections ⟨w.heading, w.options ++ [o]⟩ := by
  obtain ⟨b, hb, hholds⟩ := h.current
  have hnone : b.options.any (·.1 == o.1) = false := by
    rw [List.any_eq_false]
    intro p hp
    obtain ⟨t, hm, hname, _⟩ := hholds.options.exists_of_mem_left hp
    rw [hname, beq_iff_eq]
    exact fun heq => hnew (heq ▸ List.mem_map_of_mem hm)
  rw [Ini.step_option hb hn ht hs, Reader.addOption, hnone]
  refine ⟨_, rfl, h.bad, h.defaults, h.done, _, rfl, hholds.heading, ?_⟩
  exact List.rel_append hholds.options (.cons ⟨rfl, valueOf_singleton ht⟩ .nil)

theorem Within.step_blank (h : r.Within sections w) {source : SourceLine} (hs : source.text.toList = ['\n']) :
    ∃ out, r.step source = .ok out ∧ out.Within sections w := by
  rw [Ini.step_blank hs]
  refine ⟨_, rfl, ?_⟩
  split
  · obtain ⟨b, hb, hholds⟩ := h.current
    refine ⟨h.bad, h.defaults, h.done, { b with options := appendLine b.options r.option "" }, ?_, hholds.heading, ?_⟩
    · rw [Reader.extendValue, hb]
      rfl
    rw [appendLine, List.forall₂_map_left_iff]
    refine hholds.options.imp ?_
    rintro ⟨name, lines⟩ t ⟨hname, hvalue⟩
    dsimp only
    split
    · exact ⟨hname, (valueOf_cons_empty lines).trans hvalue⟩
    · exact ⟨hname, hvalue⟩
  · exact h

end Reader

/-! ## Line by line -/

def Written.lines (w : Written) : List (List Char) := headerLine w.heading :: w.options.map optionLine

def lines (sections : List Written) : List (List Char) := [[]].intercalate (sections.map Written.lines)

theorem lines_singleton (w : Written) : lines [w] = w.lines := List.intercalate_singleton

theorem lines_cons_cons (w v : Written) (rest : List Written) :
    lines (w :: v :: rest) = w.lines ++ [] :: lines (v :: rest) := by
  rw [lines, List.map_cons, List.map_cons, List.intercalate_cons_cons, ← List.map_cons, ← lines]
  simp

/-- Whatever their numbers are, lines lead from readers of one kind to readers of another. -/
def Leads (P : Reader → Prop) (lines : List (List Char)) (Q : Reader → Prop) : Prop :=
  ∀ r, P r → ∀ sources : List SourceLine, sources.map (·.text.toList) = lines.map (· ++ ['\n']) →
    ∃ out, sources.foldlM Reader.step r = .ok out ∧ Q out

section

variable {P Q R : Reader → Prop} {xs ys : List (List Char)} {sections : List Written} {w : Written}

theorem Leads.nil (h : ∀ r, P r → Q r) : Leads P [] Q := by
  intro r hr sources hs
  obtain rfl := List.map_eq_nil_iff.mp hs
  exact ⟨r, rfl, h r hr⟩

theorem Leads.append (h : Leads P xs Q) (h' : Leads Q ys R) : Leads P (xs ++ ys) R := by
  intro r hr sources hs
  rw [List.map_append, List.map_eq_append_iff] at hs
  obtain ⟨front, back, rfl, hfront, hback⟩ := hs
  obtain ⟨mid, hm, hmid⟩ := h r hr front hfront
  rw [List.foldlM_append, hm]
  exact h' mid hmid back hback

theorem Leads.line {line : List Char} (h : ∀ r, P r → ∀ source : SourceLine, source.text.toList = line ++ ['\n'] →
    ∃ out, r.step source = .ok out ∧ Q out) : Leads P [line] Q := by
  intro r hr sources hs
  obtain ⟨source, rfl, hsource⟩ := List.map_eq_singleton_iff.mp hs
  obtain ⟨out, ho, hout⟩ := h r hr source hsource
  exact ⟨out, by rw [List.foldlM_cons, ho]; rfl, hout⟩

theorem not_mem_of_nodup {α β : Type} {f : α → β} {xs ys : List α} {x : α} (h : ((xs ++ x :: ys).map f).Nodup) :
    f x ∉ xs.map f := by
  rw [List.map_append, List.nodup_append] at h
  exact fun hm => h.2.2 _ hm _ List.mem_cons_self rfl

theorem leads_options (options : List (String × String)) (hn : ((w.options ++ options).map Prod.fst).Nodup)
    (hc : ∀ o ∈ options, CleanName o.1 ∧ trim o.2.toList = o.2.toList) :
    Leads (Reader.Within · sections w) (options.map optionLine)
      (Reader.Within · sections ⟨w.heading, w.options ++ options⟩) := by
  induction options generalizing w with
  | nil =>
    rw [List.append_nil]
    exact .nil fun _ h => h
  | cons o options ih =>
    obtain ⟨⟨hname, htrim⟩, hc⟩ := List.forall_mem_cons.mp hc
    have hnew : o.1 ∉ w.options.map Prod.fst := not_mem_of_nodup hn
    have hline : Leads (Reader.Within · sections w) [optionLine o]
        (Reader.Within · sections ⟨w.heading, w.options ++ [o]⟩) :=
      .line fun r hr source hs => hr.step_option hname htrim hnew hs
    rw [List.append_cons] at hn ⊢
    exact hline.append (ih hn hc)

theorem leads_section (hc : w.Clean) (hnew : w.heading ∉ sections.map Written.heading) :
    Leads (Reader.Holds · sections) w.lines (Reader.Within · sections w) := by
  have hheader : Leads (Reader.Holds · sections) [headerLine w.heading] (Reader.Within · sections ⟨w.heading, []⟩) :=
    .line fun r hr source hs => hr.step_header hc hnew hs
  exact hheader.append (leads_options w.options hc.distinct fun o ho => ⟨hc.name o ho, (hc.text o ho).2⟩)

/-- Every section is read after those before it. -/
theorem leads_sections (rest : List Written) (hn : ((sections ++ rest).map Written.heading).Nodup)
    (hc : ∀ w ∈ rest, w.Clean) :
    Leads (Reader.Holds · sections) (lines rest) (Reader.Holds · (sections ++ rest)) := by
  induction rest generalizing sections with
  | nil =>
    rw [List.append_nil]
    exact .nil fun _ h => h
  | cons w rest ih =>
    obtain ⟨hw, hc⟩ := List.forall_mem_cons.mp hc
    have hnew : w.heading ∉ sections.map Written.heading := not_mem_of_nodup hn
    rw [List.append_cons] at hn ⊢
    have hsection := leads_section hw hnew
    have hclose : Leads (Reader.Within · sections w) [] (Reader.Holds · (sections ++ [w])) :=
      .nil fun _ h => h.holds hw.unshared
    cases rest with
    | nil =>
      rw [lines_singleton, ← List.append_nil w.lines, List.append_nil (sections ++ [w])]
      exact hsection.append hclose
    | cons v rest =>
      have hblank : Leads (Reader.Within · sections w) [[]] (Reader.Within · sections w) :=
        .line fun r hr source hs => hr.step_blank hs
      rw [lines_cons_cons]
      exact hsection.append (hblank.append (hclose.append (ih hn hc)))

end

/-! ## The whole text -/

variable {sections : List Written}

def document (sections : List Written) : List Char := ['\n'].intercalate (lines sections) ++ ['\n']

def documentLines (sections : List Written) : List (List Char) :=
  if sections.isEmpty then [[]] else lines sections

theorem document_eq_unlines (sections : List Written) : document sections = unlines (documentLines sections) := by
  cases sections with
  | nil => rfl
  | cons w rest =>
    have hne : lines (w :: rest) ≠ [] := by
      cases rest with
      | nil => rw [lines_singleton]; exact List.cons_ne_nil _ _
      | cons v rest => rw [lines_cons_cons]; exact List.cons_ne_nil _ _
    exact intercalate_append hne

theorem oneLine_section {w : Written} (hw : w.Clean) : ∀ line ∈ w.lines, '\n' ∉ line ∧ '\r' ∉ line := by
  intro line hl
  rcases List.mem_cons.mp hl with rfl | hl
  · obtain ⟨hfeed, hreturn⟩ := hw.heading_line
    simp [headerLine, hfeed, hreturn]
  · obtain ⟨o, ho, rfl⟩ := List.mem_map.mp hl
    obtain ⟨hfeed, hreturn⟩ := (hw.name o ho).line
    obtain ⟨hfeed', hreturn'⟩ := (hw.text o ho).1
    simp [optionLine, hfeed, hreturn, hfeed', hreturn']

theorem oneLine_lines (hc : ∀ w ∈ sections, w.Clean) : ∀ line ∈ lines sections, '\n' ∉ line ∧ '\r' ∉ line := by
  induction sections with
  | nil => exact fun _ h => absurd h List.not_mem_nil
  | cons w rest ih =>
    obtain ⟨hw, hc⟩ := List.forall_mem_cons.mp hc
    cases rest with
    | nil =>
      rw [lines_singleton]
      exact oneLine_section hw
    | cons v rest =>
      rw [lines_cons_cons, List.forall_mem_append, List.forall_mem_cons]
      exact ⟨oneLine_section hw, by simp, ih hc⟩

theorem oneLine_documentLines (hc : ∀ w ∈ sections, w.Clean) :
    ∀ line ∈ documentLines sections, '\n' ∉ line ∧ '\r' ∉ line := by
  cases sections with
  | nil => simp [documentLines]
  | cons w rest => exact oneLine_lines hc

theorem return_not_mem_document (hc : ∀ w ∈ sections, w.Clean) : '\r' ∉ document sections := by
  rw [document_eq_unlines, unlines]
  intro hm
  obtain ⟨line, hl, hm⟩ := List.mem_flatMap.mp hm
  rcases List.mem_append.mp hm with hm | hm
  · exact (oneLine_documentLines hc line hl).2 hm
  · simp at hm

/-- From the beginning of the text to its end. -/
theorem leads_documentLines (hn : (sections.map Written.heading).Nodup) (hc : ∀ w ∈ sections, w.Clean) :
    Leads (· = {}) (documentLines sections) (Reader.Holds · sections) := by
  have hstart : ∀ r : Reader, r = {} → r.Holds [] := by
    rintro _ rfl
    exact ⟨rfl, rfl, .nil⟩
  cases sections with
  | nil =>
    refine .line fun r hr source hs => ⟨r, ?_, hstart r hr⟩
    rw [step_blank hs, hr]
    rfl
  | cons w rest =>
    have hsections : Leads (Reader.Holds · []) (lines (w :: rest)) (Reader.Holds · (w :: rest)) :=
      leads_sections (w :: rest) hn hc
    exact (Leads.nil hstart).append hsections

theorem allLines_unlines {ls : List (List Char)} (h : ∀ line ∈ ls, '\n' ∉ line) :
    allLines (unlines ls) = ls.map (· ++ ['\n']) := by
  rw [allLines, splitLines_unlines h]
  rfl

theorem text_numbered (ls : List (List Char)) : (numbered ls).map (·.text.toList) = ls := by
  rw [numbered, List.map_map]
  simp [Function.comp_def]

theorem finish_of_holds {r : Reader} (h : r.Holds sections) (hc : ∀ w ∈ sections, w.Clean) :
    finish r = .ok (sections.map fun w => (w.heading, w.settings)) := by
  rw [finish, h.bad]
  simp only [List.isEmpty_nil, if_true, h.defaults]
  refine congrArg Except.ok ?_
  rw [← List.forall₂_eq_eq_eq, List.forall₂_map_left_iff, List.forall₂_map_right_iff]
  refine h.done.imp_of_mem fun b w hw hb => ?_
  have hsettings : settingsOf b.options = w.settings := by
    rw [settingsOf, Written.settings, ← List.forall₂_eq_eq_eq, List.forall₂_map_left_iff, List.forall₂_map_right_iff]
    exact hb.options.imp fun _ _ h => Prod.ext (congrArg Value.text h.1) h.2
  have hkeys : Settings.keys w.settings = w.options.map (Value.text ∘ Prod.fst) := by
    rw [Settings.keys, Written.settings, List.map_map]
    rfl
  have hdistinct : Settings.Distinct w.settings := by
    refine Settings.distinct_of_nodup_keys ?_ fun k hk => ?_
    · rw [hkeys, ← List.map_map]
      exact (hc w hw).distinct.map fun _ _ => Value.text.inj
    · obtain ⟨o, _, rfl⟩ := List.mem_map.mp (hkeys ▸ hk)
      exact ⟨o.1, rfl⟩
  rw [hb.heading, hsettings]
  exact Prod.ext rfl hdistinct.overlay_nil

/-- The text of sections is read as these sections. -/
theorem read_document (hn : (sections.map Written.heading).Nodup) (hc : ∀ w ∈ sections, w.Clean) :
    ∃ r, scan (numbered (allLines (document sections))) = .ok r ∧
      finish r = .ok (sections.map fun w => (w.heading, w.settings)) := by
  rw [document_eq_unlines, allLines_unlines fun line hl => (oneLine_documentLines hc line hl).1]
  obtain ⟨r, hr, hholds⟩ := leads_documentLines hn hc {} rfl _ (text_numbered _)
  exact ⟨r, hr, finish_of_holds hholds hc⟩

end Stanza.Ini
