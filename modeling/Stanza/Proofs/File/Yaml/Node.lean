import Stanza.File.Yaml.Node
import Stanza.Proofs.File.Yaml.Token

/-! # Where the nodes of a YAML document break

Nodes are read from the tokens of a text. They are refused, or they meet a token that the text broke off with.
-/
namespace Stanza.Yaml

instance : Caused Token Error where
  Of ts e := e = .invalid ∨ .broken e ∈ ts
  mono hs h := h.imp_right (hs.mem ·)

variable {α β : Type} {ts us : List Token}

theorem tail_of_eq_cons {t : Token} {rest : List Token} (h : ts = t :: rest) : rest.length < ts.length ∧ rest <:+ ts := by
  rw [h]
  exact ⟨Nat.lt_succ_self _, List.suffix_cons _ _⟩

theorem completes_invalid {post : α → Prop} : Completes ts post (.error Error.invalid) := .inl rfl

theorem completes_unexpected {post : α → Prop} (hs : us <:+ ts) : Completes ts post (.error (Node.unexpected us)) := by
  unfold Node.unexpected
  split
  · exact .inr (hs.mem List.mem_cons_self)
  · exact .inl rfl

namespace Node

abbrev Takes (ts : List Token) (x : Except Error (α × Reading)) : Prop := Completes ts (fun p => p.2.tokens <:+ ts) x

theorem Takes.mono {x : Except Error (α × Reading)} (hs : ts <:+ us) (h : Takes ts x) : Takes us x :=
  (Completes.mono hs h).imp fun _ hp => hp.trans hs

theorem Takes.bind {x : Except Error (α × Reading)} {f : α × Reading → Except Error (β × Reading)} (hx : Takes ts x)
    (hf : ∀ a r, r.tokens <:+ ts → Takes r.tokens (f (a, r))) : Takes ts (x >>= f) :=
  Except.Ends.bind hx fun p hp => (hf p.1 p.2 hp).mono hp

/-- One more part before those that follow it, which are read only where the tokens have become fewer. -/
theorem Takes.followed {n : Nat} {next : Reading} {x : Except Error (List α × Reading)} (part : α)
    (h : next.tokens.length < n → Takes next.tokens x) :
    Takes next.tokens (if next.tokens.length < n then do
      let (parts, last) ← x
      return (part :: parts, last)
    else throw .invalid) := by
  split
  · next hshort => exact (h hshort).bind fun parts last hlast => List.suffix_rfl
  · exact completes_invalid

theorem properties_suffix (ts : List Token) : (properties ts).2.2 <:+ ts := by
  unfold properties
  split
  · exact List.suffix_append [_, _] _
  · exact List.suffix_append [_, _] _
  · exact List.suffix_cons _ _
  · exact List.suffix_cons _ _
  · exact List.suffix_rfl

theorem tagOf_completes (handles : Handles) (written : Option TagName) : Completes ts Anything (tagOf handles written) := by
  have htext : ∀ t, Completes ts Anything (tagText handles t) := by
    intro t
    unfold tagText
    split
    · trivial
    · split
      · trivial
      · exact completes_invalid
  unfold tagOf
  split
  · trivial
  · exact Except.Ends.bind (htext _) fun _ _ => trivial

theorem bind_takes (name : Option String) (node : Node) (r : Reading) : Takes r.tokens (Node.bind name node r) := by
  unfold Node.bind
  split
  · exact List.suffix_rfl
  · split
    · exact completes_invalid
    · exact List.suffix_rfl

theorem afterComma_completes (first : Bool) (r : Reading) :
    Completes r.tokens (fun next => next.tokens <:+ r.tokens) (afterComma first r) := by
  unfold afterComma
  split
  · exact List.suffix_rfl
  · split
    · next h =>
      rw [h]
      exact List.suffix_cons _ _
    · exact completes_unexpected List.suffix_rfl

variable (handles : Handles)

/-- The readers of nodes take tokens from the front, if there are fewer than so many. -/
structure TakesBelow (n : Nat) : Prop where
  read : ∀ block indentless r, r.tokens.length < n → Takes r.tokens (read handles block indentless r)
  entry : ∀ endsKey endsValue block r, r.tokens.length < n → Takes r.tokens (entry handles endsKey endsValue block r)
  blockItems : ∀ form r, r.tokens.length < n → Takes r.tokens (blockItems handles form r)
  blockEntries : ∀ r, r.tokens.length < n → Takes r.tokens (blockEntries handles r)
  flowItems : ∀ first r, r.tokens.length < n → Takes r.tokens (flowItems handles first r)
  flowEntries : ∀ first r, r.tokens.length < n → Takes r.tokens (flowEntries handles first r)

variable {handles}

theorem TakesBelow.of_le {m n : Nat} (h : TakesBelow handles n) (hle : m ≤ n) : TakesBelow handles m where
  read block indentless r hr := h.read block indentless r (hr.trans_le hle)
  entry endsKey endsValue block r hr := h.entry endsKey endsValue block r (hr.trans_le hle)
  blockItems form r hr := h.blockItems form r (hr.trans_le hle)
  blockEntries r hr := h.blockEntries r (hr.trans_le hle)
  flowItems first r hr := h.flowItems first r (hr.trans_le hle)
  flowEntries first r hr := h.flowEntries first r (hr.trans_le hle)

theorem part_takes (isMissing : Bool) {block indentless : Bool} {r : Reading}
    (h : Takes r.tokens (read handles block indentless r)) : Takes r.tokens (part handles isMissing block indentless r) := by
  rw [part]
  split
  · exact List.suffix_rfl
  · exact h

theorem blockItems_takes_of {form : SequenceForm} {r : Reading} (ih : TakesBelow handles r.tokens.length) :
    Takes r.tokens (blockItems handles form r) := by
  rw [blockItems.eq_def]
  split
  · next rest h =>
    obtain ⟨hlt, hrest⟩ := tail_of_eq_cons h
    have hpart := part_takes (endsEntry form rest) (ih.read true false ⟨rest, r.anchors⟩ hlt)
    refine Takes.mono hrest (Takes.bind hpart fun item next hnext => ?_)
    exact Takes.followed _ (ih.blockItems _ _)
  · split
    · exact List.suffix_rfl
    · next h => exact (tail_of_eq_cons h).2
    · exact completes_unexpected List.suffix_rfl

theorem blockEntries_takes_of {r : Reading} (ih : TakesBelow handles r.tokens.length) :
    Takes r.tokens (blockEntries handles r) := by
  rw [blockEntries.eq_def]
  split
  · next rest h =>
    obtain ⟨hlt, hrest⟩ := tail_of_eq_cons h
    refine Takes.mono hrest (Takes.bind (ih.entry _ _ _ ⟨rest, r.anchors⟩ hlt) fun found next hnext => ?_)
    exact Takes.followed _ (ih.blockEntries _)
  · next rest h => exact (tail_of_eq_cons h).2
  · exact completes_unexpected List.suffix_rfl

theorem read_takes_of (block indentless : Bool) {r : Reading} (ih : TakesBelow handles r.tokens.length) :
    Takes r.tokens (read handles block indentless r) := by
  have hproperties := properties_suffix r.tokens
  rw [read.eq_def]
  split
  · next name rest h =>
    split
    · exact (tail_of_eq_cons h).2
    · exact completes_invalid
  · refine Except.Ends.bind (tagOf_completes handles _) fun tag _ => ?_
    have hcollection : ∀ {α : Type} {t : Token} {rest : List Token} {x : Except Error (α × Reading)} (f : α → Node),
        (properties r.tokens).2.2 = t :: rest → Takes rest x →
        Takes r.tokens (do let p ← x; Node.bind (properties r.tokens).1 (f p.1) p.2) := by
      intro α t rest x f h hx
      have hrest := (tail_of_eq_cons h).2.trans hproperties
      exact Takes.mono hrest (hx.bind fun a next _ => bind_takes _ _ _)
    have hlt : ∀ {t : Token} {rest : List Token}, (properties r.tokens).2.2 = t :: rest → rest.length < r.tokens.length :=
      fun h => (tail_of_eq_cons h).1.trans_le hproperties.length_le
    dsimp only
    split
    · next rest h =>
      -- the tokens after the properties may be all there are, so that this is no shorter reading
      rw [h] at hproperties
      have hitems : Takes (.entry :: rest) (blockItems handles .indentless ⟨.entry :: rest, r.anchors⟩) :=
        blockItems_takes_of (ih.of_le hproperties.length_le)
      refine Takes.mono hproperties (hitems.bind fun items next hnext => ?_)
      exact bind_takes _ _ _
    · next h => exact (bind_takes _ _ _).mono ((tail_of_eq_cons h).2.trans hproperties)
    · next h => exact hcollection _ h (ih.flowItems true ⟨_, r.anchors⟩ (hlt h))
    · next h => exact hcollection _ h (ih.flowEntries true ⟨_, r.anchors⟩ (hlt h))
    · next h => exact hcollection _ h (ih.blockItems .block ⟨_, r.anchors⟩ (hlt h))
    · next h => exact hcollection _ h (ih.blockEntries ⟨_, r.anchors⟩ (hlt h))
    · split
      · exact (bind_takes _ _ _).mono hproperties
      · exact completes_unexpected hproperties

theorem entry_takes_of {endsKey endsValue : List Token → Bool} {block : Bool} {r : Reading}
    (ih : TakesBelow handles r.tokens.length) : Takes r.tokens (entry handles endsKey endsValue block r) := by
  have hkey := part_takes (endsKey r.tokens) (read_takes_of block block ih)
  rw [entry.eq_def]
  refine hkey.bind fun k next hnext => ?_
  dsimp only
  split
  · split
    · next rest h =>
      obtain ⟨hlt, hrest⟩ := tail_of_eq_cons h
      have hvalue := part_takes (endsValue rest) (ih.read block block ⟨rest, next.anchors⟩ (hlt.trans_le hnext.length_le))
      exact Takes.mono hrest (hvalue.bind fun v last hlast => List.suffix_rfl)
    · exact List.suffix_rfl
  · exact completes_invalid

theorem flowItems_takes_of {first : Bool} {r : Reading} (ih : TakesBelow handles r.tokens.length) :
    Takes r.tokens (flowItems handles first r) := by
  rw [flowItems.eq_def]
  split
  · next rest h => exact (tail_of_eq_cons h).2
  · refine Except.Ends.bind (afterComma_completes first r) fun start hstart => ?_
    have hstartBelow := ih.of_le hstart.length_le
    refine Takes.mono hstart ?_
    split
    · split
      · next rest h => exact (tail_of_eq_cons h).2
      · next rest h =>
        obtain ⟨hlt, hrest⟩ := tail_of_eq_cons h
        split
        · refine Takes.mono hrest ((hstartBelow.entry _ _ _ ⟨rest, start.anchors⟩ hlt).bind fun found next hnext => ?_)
          exact Takes.followed _ (ih.flowItems _ _)
        · exact completes_invalid
      · refine (read_takes_of false false hstartBelow).bind fun item next hnext => ?_
        exact Takes.followed _ (ih.flowItems _ _)
    · exact completes_invalid

theorem flowEntries_takes_of {first : Bool} {r : Reading} (ih : TakesBelow handles r.tokens.length) :
    Takes r.tokens (flowEntries handles first r) := by
  rw [flowEntries.eq_def]
  split
  · next rest h => exact (tail_of_eq_cons h).2
  · refine Except.Ends.bind (afterComma_completes first r) fun start hstart => ?_
    have hstartBelow := ih.of_le hstart.length_le
    refine Takes.mono hstart ?_
    split
    · split
      · next rest h => exact (tail_of_eq_cons h).2
      · next rest h =>
        obtain ⟨hlt, hrest⟩ := tail_of_eq_cons h
        split
        · refine Takes.mono hrest ((hstartBelow.entry _ _ _ ⟨rest, start.anchors⟩ hlt).bind fun found next hnext => ?_)
          exact Takes.followed _ (ih.flowEntries _ _)
        · exact completes_invalid
      · refine (read_takes_of false false hstartBelow).bind fun k next hnext => ?_
        exact Takes.followed _ (ih.flowEntries _ _)
    · exact completes_invalid

theorem takesBelow (n : Nat) : TakesBelow handles n := by
  induction n with
  | zero => constructor <;> intros <;> omega
  | succ n ih =>
    have hbelow : ∀ r : Reading, r.tokens.length < n + 1 → TakesBelow handles r.tokens.length :=
      fun r hr => ih.of_le (Nat.le_of_lt_succ hr)
    constructor
    · exact fun block indentless r hr => read_takes_of block indentless (hbelow r hr)
    · exact fun _ _ _ r hr => entry_takes_of (hbelow r hr)
    · exact fun _ r hr => blockItems_takes_of (hbelow r hr)
    · exact fun r hr => blockEntries_takes_of (hbelow r hr)
    · exact fun _ r hr => flowItems_takes_of (hbelow r hr)
    · exact fun _ r hr => flowEntries_takes_of (hbelow r hr)

theorem read_takes (block indentless : Bool) (r : Reading) : Takes r.tokens (read handles block indentless r) :=
  read_takes_of block indentless (takesBelow _)

end Node

end Stanza.Yaml
