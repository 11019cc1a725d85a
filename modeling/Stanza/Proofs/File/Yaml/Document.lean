import Stanza.File.Yaml.Document
import Stanza.Proofs.File.Yaml.Node
import Stanza.Proofs.Value.Leaves

/-! # What YAML text is read as

A text is refused, breaks off at a number, or holds a scalar whose text is no value of its type. What it is read as has
scalars at its ends.
-/
namespace Stanza

namespace Yaml

/-! ## Roots -/

theorem finish_completes (ts : List Token) : Completes ts Anything (finish ts) := by
  unfold finish
  dsimp only
  split
  · trivial
  · exact completes_unexpected (List.dropWhile_suffix _)

theorem preamble_completes (p : Preamble) (ts : List Token) : Completes ts (fun q => q.2 <:+ ts) (preamble p ts) := by
  have hadd : ∀ (p : Preamble) d (ts : List Token), Completes ts Anything (p.add d : Except Error Preamble) := by
    intro p d ts
    unfold Preamble.add
    split
    · exact Except.ends_ite completes_invalid trivial
    · exact Except.ends_ite completes_invalid trivial
    · trivial
  fun_induction preamble p ts with
  | case1 p d rest ih =>
    refine Except.Ends.bind (hadd p d _) fun q _ => ?_
    have hsuffix := List.suffix_cons (Token.directive d) rest
    exact (Completes.mono hsuffix (ih q)).imp fun _ hq => hq.trans hsuffix
  | case2 => exact List.suffix_rfl

/-- What breaks the root of a document is among its tokens. -/
theorem root_completes (ts : List Token) : Completes ts Anything (root ts) := by
  have hcontent : ∀ (handles : Node.Handles) us, us <:+ ts → Completes ts Anything (do
      let p ← Node.read handles true false { tokens := us }
      finish p.2.tokens
      return some p.1 : Except Error (Option Node)) := by
    intro handles us hus
    refine Except.Ends.bind ((Node.read_takes true false ⟨us, []⟩).mono hus) fun p hp => ?_
    refine Except.Ends.bind (Completes.mono hp (finish_completes p.2.tokens)) fun _ _ => ?_
    trivial
  unfold root
  dsimp only
  split
  case h_1 => trivial
  case h_2 | h_3 =>
    refine Except.Ends.bind (preamble_completes {} _) fun p hp => ?_
    split
    · next rest h =>
      have hrest := (tail_of_eq_cons h).2.trans hp
      split
      · exact Except.Ends.bind (Completes.mono hrest (finish_completes rest)) fun _ _ => trivial
      · exact hcontent _ rest hrest
    · exact completes_unexpected hp
  case h_4 => exact hcontent _ _ List.suffix_rfl

/-! ## Scalars -/

abbrev Unreported {α : Type} (x : Except Error α) : Prop := x.Ends Anything (Error.Because fun f => f.isReported = false)

theorem basedNumber_unreported (base : Nat) (digits : List Char) : Unreported (basedNumber base digits) := by
  unfold basedNumber
  split
  · trivial
  · rfl

theorem decimalNumber_unreported (digits : List Char) : Unreported (decimalNumber digits) := by
  unfold decimalNumber
  split
  · trivial
  · rfl
  · rfl

theorem integer_unreported (text : String) : Unreported (integer text) := by
  unfold integer
  dsimp only
  split
  · rfl
  split
  · rfl
  · trivial
  · exact (basedNumber_unreported _ _).bind fun _ _ => trivial
  · exact (basedNumber_unreported _ _).bind fun _ _ => trivial
  · exact (basedNumber_unreported _ _).bind fun _ _ => trivial
  · split
    · exact Except.Ends.bind (Except.ends_mapM fun part _ => decimalNumber_unreported part) fun _ _ => trivial
    · exact (decimalNumber_unreported _).bind fun _ _ => trivial

theorem floatPart_unreported (cs : List Char) : Unreported (floatPart cs) := by
  unfold floatPart
  split
  · trivial
  · rfl

theorem float_unreported (text : String) : Unreported (float text) := by
  unfold float
  dsimp only
  split
  · rfl
  split
  · trivial
  · trivial
  · split
    · exact Except.Ends.bind (Except.ends_mapM fun part _ => floatPart_unreported part) fun _ _ => trivial
    · exact (floatPart_unreported _).bind fun _ _ => trivial

theorem calendar_unreported (check : Except CalendarError Unit) : Unreported (calendar check) := by
  cases check with
  | ok _ => trivial
  | error e => rfl

theorem moment_unreported (text : String) : Unreported (moment text) := by
  have hchecks : ∀ (first second : Except CalendarError Unit) (m : Moment),
      Unreported (do calendar first; calendar second; return m) := by
    intro first second m
    refine (calendar_unreported first).bind fun _ _ => ?_
    exact (calendar_unreported second).bind fun _ _ => trivial
  unfold moment
  split
  · rfl
  · exact (calendar_unreported _).bind fun _ _ => trivial
  · dsimp only
    split
    · exact (calendar_unreported _).bind fun _ _ => hchecks _ _ _
    · exact hchecks _ _ _

theorem bool_unreported (text : String) : Unreported (bool text) := by
  unfold bool
  dsimp only
  split
  · trivial
  · rfl

/-- A scalar gives a scalar. What goes wrong with its text is no error of loading. -/
theorem scalarValue_ends (tag : Tag) (text : String) :
    (scalarValue tag text).Ends Value.Simple (Error.Because fun f => f.isReported = false) := by
  unfold scalarValue
  split
  · exact .of_isScalar rfl
  · exact (bool_unreported text).map fun _ _ => .of_isScalar rfl
  · exact (integer_unreported text).map fun _ _ => .of_isScalar rfl
  · exact (float_unreported text).map fun _ _ => .of_isScalar rfl
  · exact (moment_unreported text).map fun _ _ => .of_isScalar rfl
  · exact .of_isScalar rfl
  · split
    · exact .of_isScalar rfl
    · trivial
  all_goals trivial

/-! ## Trees -/

/-- A scalar in the tree, or a mapping that stands for a text, is no value of its type. -/
inductive Node.Flawed (fault : Fault) : Node → Prop
  | scalar {tag : Tag} {text : String} (h : scalarValue tag text = .error (.fault fault)) : Flawed fault (.scalar tag text)
  | default {tag : Tag} {entries : List (Node × Node)} {text : String} (hd : defaultText? entries = some text)
    (h : scalarValue tag text = .error (.fault fault)) : Flawed fault (.mapping tag entries)
  | item {tag : Tag} {items : List Node} {node : Node} (ht : tag ≠ .pairs) (hm : node ∈ items) (h : Flawed fault node) :
    Flawed fault (.sequence tag items)
  | pairKey {tag : Tag} {items : List Node} {entries : List (Node × Node)} {k v : Node} (hp : .mapping tag entries ∈ items)
    (hm : (k, v) ∈ entries) (h : Flawed fault k) : Flawed fault (.sequence .pairs items)
  | pairValue {tag : Tag} {items : List Node} {entries : List (Node × Node)} {k v : Node} (hp : .mapping tag entries ∈ items)
    (hm : (k, v) ∈ entries) (h : Flawed fault v) : Flawed fault (.sequence .pairs items)
  | key {tag : Tag} {entries : List (Node × Node)} {k v : Node} (hm : (k, v) ∈ entries) (h : Flawed fault k) :
    Flawed fault (.mapping tag entries)
  | value {tag : Tag} {entries : List (Node × Node)} {k v : Node} (hm : (k, v) ∈ entries) (h : Flawed fault v) :
    Flawed fault (.mapping tag entries)

variable {fault : Fault}

theorem Node.Flawed.isReported {node : Node} (h : node.Flawed fault) : fault.isReported = false := by
  induction h with
  | scalar h => exact (scalarValue_ends _ _).error h
  | default _ h => exact (scalarValue_ends _ _).error h
  | item _ _ _ ih => exact ih
  | pairKey _ _ _ ih | pairValue _ _ _ ih => exact ih
  | key _ _ ih | value _ _ ih => exact ih

theorem Node.flawed_of_item {items : List Node} (h : ∃ item ∈ items, item.Flawed fault) {tag : Tag} (ht : tag ≠ .pairs) :
    Node.Flawed fault (.sequence tag items) := by
  obtain ⟨item, hm, h⟩ := h
  exact .item ht hm h

def EntryFlawed (fault : Fault) (entries : List (Node × Node)) : Prop :=
  ∃ e ∈ entries, e.1.Flawed fault ∨ e.2.Flawed fault

theorem Node.flawed_of_entry {entries : List (Node × Node)} (h : EntryFlawed fault entries) (tag : Tag) :
    Node.Flawed fault (.mapping tag entries) := by
  obtain ⟨e, hm, hk | hv⟩ := h
  · exact .key hm hk
  · exact .value hm hv

theorem entryFlawed_cons_iff {e : Node × Node} {entries : List (Node × Node)} :
    EntryFlawed fault (e :: entries) ↔ (e.1.Flawed fault ∨ e.2.Flawed fault) ∨ EntryFlawed fault entries :=
  List.exists_mem_cons_iff _ _ _

theorem entryFlawed_append_iff {first second : List (Node × Node)} :
    EntryFlawed fault (first ++ second) ↔ EntryFlawed fault first ∨ EntryFlawed fault second := by
  simp only [EntryFlawed, List.mem_append, or_and_right, exists_or]

theorem entryFlawed_append_cons_iff {e : Node × Node} {first second : List (Node × Node)} :
    EntryFlawed fault (first ++ e :: second) ↔
      (e.1.Flawed fault ∨ e.2.Flawed fault) ∨ EntryFlawed fault (first ++ second) := by
  rw [entryFlawed_append_iff, entryFlawed_cons_iff, entryFlawed_append_iff, or_left_comm]

def PairFlawed (fault : Fault) (items : List Node) : Prop :=
  ∃ tag entries, Node.mapping tag entries ∈ items ∧ EntryFlawed fault entries

theorem Node.flawed_of_pair {items : List Node} (h : PairFlawed fault items) : Node.Flawed fault (.sequence .pairs items) := by
  obtain ⟨tag, entries, hp, e, hm, hk | hv⟩ := h
  · exact .pairKey hp hm hk
  · exact .pairValue hp hm hv

theorem pairFlawed_cons_iff {tag : Tag} {k v : Node} {items : List Node} :
    PairFlawed fault (.mapping tag [(k, v)] :: items) ↔ (k.Flawed fault ∨ v.Flawed fault) ∨ PairFlawed fault items := by
  constructor
  · rintro ⟨written, entries, hp, h⟩
    obtain heq | hp := List.mem_cons.mp hp
    · cases heq
      obtain ⟨e, hm, h⟩ := h
      cases List.mem_singleton.mp hm
      exact .inl h
    · exact .inr ⟨written, entries, hp, h⟩
  · rintro (h | ⟨written, entries, hp, h⟩)
    · exact ⟨tag, _, List.mem_cons_self, _, List.mem_singleton_self _, h⟩
    · exact ⟨written, entries, List.mem_cons_of_mem _ hp, h⟩

/-- A text gives a scalar, or it is no value of its type. -/
theorem scalarValue_because {tag : Tag} {text : String} {reason : Fault → Prop}
    (h : ∀ fault, scalarValue tag text = .error (.fault fault) → reason fault) :
    (scalarValue tag text).Ends Value.Simple (Error.Because reason) := by
  refine Except.ends_iff.mpr ⟨fun v hv => (scalarValue_ends tag text).ok hv, fun e he => ?_⟩
  cases e with
  | invalid => trivial
  | fault fault => exact h fault he

mutual

/-- A tree gives a value with scalars at its ends, or it is flawed. -/
theorem Node.value_ends (node : Node) : node.value.Ends Value.Simple (Error.Because (node.Flawed ·)) := by
  cases node with
  | scalar tag text => exact scalarValue_because fun _ h => .scalar h
  | sequence tag items =>
    cases tag with
    | sequence =>
      have hitems := (itemValues_ends items).imp_error
        (Error.Because.mono fun _ h => Node.flawed_of_item h (show Tag.sequence ≠ .pairs by decide))
      exact hitems.map fun _ hv => Value.simple_list_iff.mpr hv
    | pairs =>
      have hpairs := (pairValues_ends items).imp_error (Error.Because.mono fun _ h => Node.flawed_of_pair h)
      exact hpairs.map fun _ hv => Value.simple_list_iff.mpr hv
    | _ => trivial
  | mapping tag entries =>
    have hentries := fun tag => (entryValues_ends entries (List.forall_mem_nil _)).imp_error
      (Error.Because.mono fun _ h => Node.flawed_of_entry h tag)
    cases tag with
    | mapping => exact (hentries .mapping).map fun _ hs => Value.simple_map_iff.mpr hs
    | set => exact (hentries .set).bind fun _ _ => .of_isScalar rfl
    | _ =>
      simp only [Node.value]
      split
      · next text hd => exact scalarValue_because fun _ h => .default hd h
      · trivial
termination_by structural node

theorem itemValues_ends (items : List Node) :
    (itemValues items).Ends (fun values => ∀ v ∈ values, v.Simple)
      (Error.Because fun fault => ∃ item ∈ items, item.Flawed fault) := by
  cases items with
  | nil => exact List.forall_mem_nil _
  | cons item rest =>
    have hhead : ∀ fault, item.Flawed fault → ∃ x ∈ item :: rest, x.Flawed fault :=
      fun _ h => List.exists_mem_cons_of _ h
    have htail : ∀ fault, (∃ x ∈ rest, x.Flawed fault) → ∃ x ∈ item :: rest, x.Flawed fault :=
      fun _ h => List.exists_mem_cons_of_exists h
    refine (item.value_ends.imp_error (Error.Because.mono hhead)).bind fun v hv => ?_
    refine ((itemValues_ends rest).imp_error (Error.Because.mono htail)).bind fun vs hvs => ?_
    exact List.forall_mem_cons.mpr ⟨hv, hvs⟩
termination_by structural items

theorem pairValues_ends (items : List Node) :
    (pairValues items).Ends (fun values => ∀ v ∈ values, v.Simple) (Error.Because (PairFlawed · items)) := by
  match items with
  | [] => exact List.forall_mem_nil _
  | .mapping tag [(k, v)] :: rest =>
    have hkey : ∀ fault, k.Flawed fault → PairFlawed fault (.mapping tag [(k, v)] :: rest) :=
      fun _ h => pairFlawed_cons_iff.mpr (.inl (.inl h))
    have hvalue : ∀ fault, v.Flawed fault → PairFlawed fault (.mapping tag [(k, v)] :: rest) :=
      fun _ h => pairFlawed_cons_iff.mpr (.inl (.inr h))
    have hrest : ∀ fault, PairFlawed fault rest → PairFlawed fault (.mapping tag [(k, v)] :: rest) :=
      fun _ h => pairFlawed_cons_iff.mpr (.inr h)
    refine (k.value_ends.imp_error (Error.Because.mono hkey)).bind fun key hk => ?_
    refine (v.value_ends.imp_error (Error.Because.mono hvalue)).bind fun value hv => ?_
    refine ((pairValues_ends rest).imp_error (Error.Because.mono hrest)).bind fun vs hvs => ?_
    have hpair : (Value.tuple [key, value]).Simple :=
      Value.simple_tuple_iff.mpr (List.forall_mem_cons.mpr ⟨hk, List.forall_mem_singleton.mpr hv⟩)
    exact List.forall_mem_cons.mpr ⟨hpair, hvs⟩
  | .scalar .. :: _ | .sequence .. :: _ | .mapping _ [] :: _ | .mapping _ (_ :: _ :: _) :: _ => trivial
termination_by structural items

theorem entryValues_ends (entries : List (Node × Node)) {found : Settings} (hf : found.Simple) :
    (entryValues found entries).Ends Settings.Simple (Error.Because (EntryFlawed · entries)) := by
  cases entries with
  | nil => exact hf
  | cons entry rest =>
    cases entry with
    | mk k v =>
      have hkey : ∀ fault, k.Flawed fault → EntryFlawed fault ((k, v) :: rest) :=
        fun _ h => entryFlawed_cons_iff.mpr (.inl (.inl h))
      have hvalue : ∀ fault, v.Flawed fault → EntryFlawed fault ((k, v) :: rest) :=
        fun _ h => entryFlawed_cons_iff.mpr (.inl (.inr h))
      have hrest : ∀ fault, EntryFlawed fault rest → EntryFlawed fault ((k, v) :: rest) :=
        fun _ h => entryFlawed_cons_iff.mpr (.inr h)
      refine (k.value_ends.imp_error (Error.Because.mono hkey)).bind fun key hk => ?_
      dsimp only
      split
      · trivial
      · refine (v.value_ends.imp_error (Error.Because.mono hvalue)).bind fun value hv => ?_
        exact (entryValues_ends rest (hf.insert hk hv)).imp_error (Error.Because.mono hrest)
termination_by structural entries

end

/-! ## Merges -/

theorem entriesOf_ends (node : Node) :
    (entriesOf node).Ends (fun entries => ∃ tag, node = .mapping tag entries) (· = .invalid) := by
  unfold entriesOf
  split
  · exact ⟨_, rfl⟩
  · rfl

/-- What is merged is part of the value of the merge. -/
theorem mergedEntries_ends (node : Node) :
    (mergedEntries node).Ends (fun entries => ∀ fault, EntryFlawed fault entries → node.Flawed fault) (· = .invalid) := by
  unfold mergedEntries
  split
  · next tag items =>
    have hitems := Except.ends_mapM fun item (_ : item ∈ items) => entriesOf_ends item
    refine hitems.bind fun merged hmerged => ?_
    rintro fault ⟨e, he, h⟩
    obtain ⟨entries, hpart, hm⟩ := List.mem_flatten.mp he
    obtain ⟨_, hitem, written, rfl⟩ := hmerged.exists_of_mem_right (List.mem_reverse.mp hpart)
    have hentries : EntryFlawed fault entries := ⟨e, hm, h⟩
    by_cases ht : tag = .pairs
    · rw [ht]
      exact Node.flawed_of_pair ⟨written, entries, hitem, hentries⟩
    · exact Node.flawed_of_item ⟨_, hitem, Node.flawed_of_entry hentries written⟩ ht
  · exact (entriesOf_ends _).imp fun entries ⟨tag, hnode⟩ fault h => hnode ▸ Node.flawed_of_entry h tag

mutual

/-- Merging moves scalars about, and adds none that is no value. -/
theorem Node.expand_ends (node : Node) :
    node.expand.Ends (fun expanded => ∀ fault, expanded.Flawed fault → node.Flawed fault) (· = .invalid) := by
  cases node with
  | scalar tag text => exact fun _ h => h
  | sequence tag items =>
    cases tag with
    | pairs =>
      refine (expandPairs_ends items).bind fun expanded hpairs fault h => Node.flawed_of_pair (hpairs fault ?_)
      cases h with
      | item ht _ _ => exact absurd rfl ht
      | pairKey hp hm h => exact ⟨_, _, hp, _, hm, .inl h⟩
      | pairValue hp hm h => exact ⟨_, _, hp, _, hm, .inr h⟩
    | _ =>
      refine (expandItems_ends items).bind fun expanded hitems fault h => ?_
      cases h with
      | item ht hm h => exact Node.flawed_of_item (hitems fault ⟨_, hm, h⟩) ht
  | mapping tag entries =>
    have hentry : ∀ (tag : Tag) (expanded : List (Node × Node)), (∀ text, scalarValue tag text = .error .invalid) →
        (∀ fault, EntryFlawed fault expanded → EntryFlawed fault entries) →
        ∀ fault, Node.Flawed fault (.mapping tag expanded) → Node.Flawed fault (.mapping tag entries) := by
      intro tag expanded hno hentries fault h
      refine Node.flawed_of_entry (hentries fault ?_) tag
      cases h with
      | default _ h =>
        rw [hno] at h
        cases h
      | key hm h => exact ⟨_, hm, .inl h⟩
      | value hm h => exact ⟨_, hm, .inr h⟩
    cases tag with
    | mapping => exact (expandEntries_ends entries).bind fun _ h => hentry .mapping _ (fun _ => rfl) h
    | set => exact (expandEntries_ends entries).bind fun _ h => hentry .set _ (fun _ => rfl) h
    | _ => exact fun _ h => h
termination_by structural node

theorem expandItems_ends (items : List Node) :
    (expandItems items).Ends (fun expanded => ∀ fault, (∃ x ∈ expanded, x.Flawed fault) → ∃ x ∈ items, x.Flawed fault)
      (· = .invalid) := by
  cases items with
  | nil => exact fun _ h => h
  | cons item rest =>
    refine item.expand_ends.bind fun first hfirst => ?_
    refine (expandItems_ends rest).bind fun more hmore => ?_
    intro fault h
    rw [List.exists_mem_cons_iff] at h ⊢
    exact h.imp (hfirst fault) (hmore fault)
termination_by structural items

theorem expandPairs_ends (items : List Node) :
    (expandPairs items).Ends (fun expanded => ∀ fault, PairFlawed fault expanded → PairFlawed fault items)
      (· = .invalid) := by
  match items with
  | [] => exact fun _ h => h
  | .mapping tag [(k, v)] :: rest =>
    refine k.expand_ends.bind fun key hk => ?_
    refine v.expand_ends.bind fun value hv => ?_
    refine (expandPairs_ends rest).bind fun more hrest => ?_
    intro fault h
    rw [pairFlawed_cons_iff] at h ⊢
    exact h.imp (Or.imp (hk fault) (hv fault)) (hrest fault)
  | .scalar .. :: _ | .sequence .. :: _ | .mapping _ [] :: _ | .mapping _ (_ :: _ :: _) :: _ => rfl
termination_by structural items

theorem expandEntries_ends (entries : List (Node × Node)) :
    (expandEntries entries).Ends (fun parts => ∀ fault, EntryFlawed fault (parts.1 ++ parts.2) → EntryFlawed fault entries)
      (· = .invalid) := by
  cases entries with
  | nil => exact fun _ h => h
  | cons entry rest =>
    cases entry with
    | mk k v =>
      refine k.expand_ends.bind fun key hk => ?_
      refine v.expand_ends.bind fun value hv => ?_
      refine (expandEntries_ends rest).bind fun parts hrest => ?_
      dsimp only
      split
      · refine (mergedEntries_ends value).bind fun merged hmerged => ?_
        intro fault h
        rw [List.append_assoc, entryFlawed_append_iff] at h
        rw [entryFlawed_cons_iff]
        exact h.imp (fun h => .inr (hv fault (hmerged fault h))) (hrest fault)
      · intro fault h
        rw [entryFlawed_append_cons_iff] at h
        rw [entryFlawed_cons_iff]
        refine h.imp (Or.imp (fun h => ?_) (hv fault)) (hrest fault)
        cases h with
        | scalar h => cases h
      · intro fault h
        rw [entryFlawed_append_cons_iff] at h
        rw [entryFlawed_cons_iff]
        exact h.imp (Or.imp (hk fault) (hv fault)) (hrest fault)
termination_by structural entries

end

/-! ## Documents -/

/-- A text fails for a number that cannot be read, or for a scalar that is no value of its type. -/
inductive Breaks (text : List Char) (fault : Fault) : Prop
  | number (h : BadNumber text fault)
  | scalar {node : Node} (hr : root (tokens text) = .ok (some node)) (h : node.Flawed fault)

theorem Breaks.isReported {text : List Char} (h : Breaks text fault) : fault.isReported = false := by
  cases h with
  | number h => exact h.isReported
  | scalar _ h => exact h.isReported

theorem badNumber_of_root {text : List Char} (h : root (tokens text) = .error (.fault fault)) : BadNumber text fault := by
  obtain h | h := (root_completes (tokens text)).error h
  · cases h
  · exact of_broken_mem_tokens h

/-- A fault in the first blocks is for a number in them. -/
theorem badNumber_of_faultBefore? {text : List Char} {place : Nat} (h : faultBefore? text place = some fault) :
    BadNumber text fault := by
  unfold faultBefore? at h
  split at h
  · next f hroot =>
    cases h
    exact (badNumber_of_root hroot).mono (List.take_prefix _ _).isInfix
  · cases h

theorem read_ends (text : List Char) : (read text).Ends Value.Simple (Error.Because (Breaks text)) := by
  unfold read
  dsimp only
  split
  · cases hf : faultBefore? text (text.takeWhile isPrintable).length with
    | none => trivial
    | some f => exact .number (badNumber_of_faultBefore? hf)
  · refine Except.ends_iff.mpr ⟨fun v h => ?_, fun e h => ?_⟩
    · obtain ⟨found, _, h⟩ := Except.bind_eq_ok_iff.mp h
      cases found with
      | none =>
        cases h
        exact .of_isScalar rfl
      | some node =>
        obtain ⟨expanded, _, h⟩ := Except.bind_eq_ok_iff.mp h
        exact expanded.value_ends.ok h
    · cases e with
      | invalid => trivial
      | fault fault =>
        obtain h | ⟨found, hroot, h⟩ := Except.bind_eq_error_iff.mp h
        · exact .number (badNumber_of_root h)
        cases found with
        | none => cases h
        | some node =>
          refine .scalar hroot ?_
          obtain h | ⟨expanded, hexpanded, h⟩ := Except.bind_eq_error_iff.mp h
          · cases node.expand_ends.error h
          · exact node.expand_ends.ok hexpanded fault (expanded.value_ends.error h)

/-- What keeps the bytes of a file from being read: bytes that are no text, or what is wrong in the text before them. -/
inductive Unread (bytes : List UInt8) : Fault → Prop
  | undecodable {chars : List Char} {e : Text.Utf8Error} (hd : Text.decodeUtf8Stream bytes = (chars, some e)) :
    Unread bytes (.undecodable e)
  | text {chars : List Char} {flaw : Option Text.Utf8Error} {fault : Fault}
    (hd : Text.decodeUtf8Stream bytes = (chars, flaw)) (h : Breaks (Text.unifyLineEnds chars) fault) : Unread bytes fault

theorem Unread.isReported {bytes : List UInt8} (h : Unread bytes fault) : fault.isReported = false := by
  cases h with
  | undecodable _ => rfl
  | text _ h => exact h.isReported

theorem load_ends (bytes : List UInt8) : (load bytes).Ends Value.Simple (Error.Because (Unread bytes)) := by
  unfold load
  cases hd : Text.decodeUtf8Stream bytes with
  | mk chars flaw =>
    cases flaw with
    | none => exact (read_ends _).imp_error (Error.Because.mono fun _ h => .text hd h)
    | some e =>
      dsimp only
      cases hf : faultBefore? (Text.unifyLineEnds chars) (Text.unifyLineEnds chars).length with
      | none => exact .undecodable hd
      | some f => exact .text hd (.number (badNumber_of_faultBefore? hf))

/-! ## Loaders -/

/-- What any loader keeps to: there are scalars at the ends of what it reads, and its faults are no errors of a document
or of loading. -/
class Loader.Lawful [Loader] : Prop where
  simple {bytes : List UInt8} {v : Value} : Loader.load bytes = .ok v → v.Simple
  unreported {bytes : List UInt8} {fault : Fault} : Loader.load bytes = .error (.fault fault) → fault.isReported = false

instance : Loader.Lawful where
  simple h := (load_ends _).ok h
  unreported h := ((load_ends _).error h).isReported

end Yaml

end Stanza
