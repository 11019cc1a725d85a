import Stanza.Proofs.Logged
import Stanza.Proofs.Settings
import Stanza.Section

/-! # Sections resolved part by part

A section with subsections is resolved if its own settings and those of every subsection are, and one without if
its own settings are.
-/
namespace Stanza.Section

theorem resolve_eq_ok_iff {f : Option String → Settings → Settings → Logged Settings} {s : Section}
    {r : Resolved Settings} :
    (s.resolve f).result = .ok r ↔ ∃ wide, (f none [] s.settings).result = .ok wide ∧
      if s.hasSubsections then
        ∃ results, List.Forall₂ (fun e p => e.1 = p.1 ∧ (f (some e.1) wide e.2).result = .ok p.2) s.subsections results ∧
          .named results = r
      else .sole wide = r := by
  simp only [resolve, Logged.result_bind_eq_ok_iff]
  refine exists_congr fun wide => and_congr_right fun _ => ?_
  cases s.hasSubsections with
  | false => simp
  | true =>
    simp only [if_true, Logged.result_bind_eq_ok_iff, Logged.result_mapM_eq_ok_iff, Logged.result_pure, Except.ok.injEq]
    refine exists_congr fun results => and_congr_left fun _ => ?_
    refine iff_of_eq (congrArg (List.Forall₂ · s.subsections results) (funext₂ fun e p => propext ?_))
    constructor
    · rintro ⟨profile, hp, rfl⟩
      exact ⟨rfl, hp⟩
    · rintro ⟨hk, hp⟩
      exact ⟨p.2, hp, Prod.ext hk rfl⟩

/-- Every part is resolved under its name. -/
theorem forall₂_of_resolve {f : Option String → Settings → Settings → Logged Settings} {s : Section}
    {r : Resolved Settings} (h : (s.resolve f).result = .ok r) :
    ∃ wide, List.Forall₂ (fun e p => e.1 = p.1 ∧ (f e.1 wide e.2).result = .ok p.2) s.profiles r.toList := by
  obtain ⟨wide, hwide, hr⟩ := resolve_eq_ok_iff.mp h
  rw [profiles]
  split at hr
  · next hs =>
    obtain ⟨results, hf, rfl⟩ := hr
    refine ⟨wide, ?_⟩
    rw [if_pos hs, Resolved.toList, List.forall₂_map_left_iff, List.forall₂_map_right_iff]
    exact hf.imp fun _ _ h => ⟨congrArg some h.1, h.2⟩
  · next hs =>
    cases hr
    exact ⟨[], by rw [if_neg hs]; exact .cons ⟨rfl, hwide⟩ .nil⟩

theorem profiles_ne_nil (s : Section) : s.profiles ≠ [] := by
  rw [profiles]
  split
  · next h => simpa [hasSubsections] using h
  · simp

/-! ## Results one by one -/

namespace Resolved

variable {α β γ : Type} {R : α → β → Prop} {s : Resolved α} {r : Resolved β}

/-- Results that are related one by one, under the same names. -/
inductive Rel (R : α → β → Prop) : Resolved α → Resolved β → Prop
  | sole {a : α} {b : β} (h : R a b) : Rel R (.sole a) (.sole b)
  | named {as : List (String × α)} {bs : List (String × β)}
    (h : List.Forall₂ (fun e f => e.1 = f.1 ∧ R e.2 f.2) as bs) : Rel R (.named as) (.named bs)

theorem Rel.toList (h : Rel R s r) : List.Forall₂ (fun e f => e.1 = f.1 ∧ R e.2 f.2) s.toList r.toList := by
  cases h with
  | sole h => exact .cons ⟨rfl, h⟩ .nil
  | named h =>
    rw [Resolved.toList, Resolved.toList, List.forall₂_map_left_iff, List.forall₂_map_right_iff]
    exact h.imp fun _ _ h => ⟨congrArg some h.1, h.2⟩

theorem exists_rel (h : ∀ e ∈ r.toList, ∃ a, R a e.2) : ∃ s, Rel R s r := by
  cases r with
  | sole b =>
    obtain ⟨a, ha⟩ := h _ (List.mem_singleton_self _)
    exact ⟨.sole a, .sole ha⟩
  | named bs =>
    have hex : ∀ f ∈ bs, ∃ e : String × α, e.1 = f.1 ∧ R e.2 f.2 := by
      intro f hf
      obtain ⟨a, ha⟩ := h (some f.1, f.2) (List.mem_map_of_mem hf)
      exact ⟨(f.1, a), rfl, ha⟩
    obtain ⟨as, has⟩ := List.exists_forall₂ hex
    exact ⟨.named as, .named has.flip⟩

theorem Rel.imp_of_mem {S : α → β → Prop} (h : Rel R s r) (hS : ∀ a, ∀ e ∈ r.toList, R a e.2 → S a e.2) :
    Rel S s r := by
  cases h with
  | sole h => exact .sole (hS _ _ (List.mem_singleton_self _) h)
  | named h => exact .named (h.imp_of_mem fun _ f hf h => ⟨h.1, hS _ _ (List.mem_map_of_mem hf) h.2⟩)

theorem Rel.exists_between {S : β → γ → Prop} {t : Resolved γ} (h : Rel (fun a c => ∃ b, R a b ∧ S b c) s t) :
    ∃ r, Rel R s r ∧ Rel S r t := by
  cases h with
  | sole h =>
    obtain ⟨b, hr, hs⟩ := h
    exact ⟨.sole b, .sole hr, .sole hs⟩
  | @named as cs h =>
    have hpair : List.Forall₂ (fun e g => ∃ f : String × β, (e.1 = f.1 ∧ R e.2 f.2) ∧ f.1 = g.1 ∧ S f.2 g.2) as cs :=
      h.imp fun e _ ⟨hk, b, hr, hs⟩ => ⟨(e.1, b), ⟨rfl, hr⟩, hk, hs⟩
    obtain ⟨bs, hr, hs⟩ := hpair.exists_between
    exact ⟨.named bs, .named hr, .named hs⟩

theorem Rel.map_right {f : γ → β} {t : Resolved γ} (h : Rel (fun a c => R a (f c)) s t) : Rel R s (t.map f) := by
  cases h with
  | sole h => exact .sole h
  | named h => exact .named (List.forall₂_map_right_iff.mpr h)

theorem Rel.map_left {f : α → γ} {S : γ → β → Prop} (h : Rel (fun a b => S (f a) b) s r) : Rel S (s.map f) r := by
  cases h with
  | sole h => exact .sole h
  | named h => exact .named (List.forall₂_map_left_iff.mpr h)

theorem toList_map (s : Resolved α) (f : α → γ) : (s.map f).toList = s.toList.map fun e => (e.1, f e.2) := by
  cases s with
  | sole a => rfl
  | named results => simp [toList, map]

theorem names_map (s : Resolved α) (f : α → γ) : (s.map f).names = s.names := by
  cases s with
  | sole a => rfl
  | named results =>
    rw [map, names, names, List.map_map]
    rfl

theorem Rel.names (h : Rel R s r) : s.names = r.names := by
  cases h with
  | sole _ => rfl
  | named h =>
    rw [Resolved.names, Resolved.names, ← List.forall₂_eq_eq_eq, List.forall₂_map_left_iff, List.forall₂_map_right_iff]
    exact h.imp fun _ _ h => h.1

theorem exists_primary {profiles : Resolved Settings} (h : profiles.toList ≠ []) :
    ∃ name, (name, profiles.primary?.getD []) ∈ profiles.toList := by
  rw [primary?]
  cases hl : profiles.toList with
  | nil => exact absurd hl h
  | cons e rest => exact ⟨e.1, List.mem_cons_self⟩

end Resolved

/-! ## Trees -/

namespace Tree

theorem find?_cons (e : Value × Entry) (t : Tree) (key : Value) :
    find? (e :: t) key = if e.1.same key then some e.2 else find? t key := by
  simp only [find?, List.find?_cons]
  cases e.1.same key <;> rfl

theorem insert_cons (e : Value × Entry) (t : Tree) (key : Value) (entry : Entry) :
    insert (e :: t) key entry = if e.1.same key then (e.1, entry) :: t else e :: insert t key entry := rfl

theorem find?_insert (t : Tree) (name other : String) (entry : Entry) :
    (t.insert (.text name) entry).find? (.text other) = if name = other then some entry else t.find? (.text other) := by
  have hname : (Value.text name).same (.text other) = decide (name = other) := by
    rw [Bool.eq_iff_iff, Value.text_same_iff]
    simp [eq_comm]
  induction t with
  | nil =>
    change find? [(.text name, entry)] (.text other) = _
    rw [find?_cons, hname]
    simp
  | cons e t ih =>
    rw [insert_cons]
    split
    · next he =>
      rw [find?_cons, find?_cons, Value.same_text_iff.mp he, hname]
      by_cases h : name = other <;> simp [h]
    · next he =>
      rw [find?_cons, find?_cons, ih]
      by_cases h : name = other
      · rw [if_neg (h ▸ he), if_pos h, if_pos h]
      · rw [if_neg h, if_neg h]

/-- A key that is no text is not in the way of one. -/
theorem find?_insert_of_not_text (t : Tree) {key : Value} (hk : key.isText = false) (entry : Entry) (name : String) :
    (t.insert key entry).find? (.text name) = t.find? (.text name) := by
  have hkey : ¬ key.same (.text name) = true := by
    intro hsame
    rw [Value.same_text_iff.mp hsame] at hk
    cases hk
  induction t with
  | nil =>
    change find? [(key, entry)] (.text name) = _
    rw [find?_cons, if_neg hkey]
  | cons e t ih =>
    rw [insert_cons]
    split
    · next hsame =>
      have he : ¬ e.1.same (.text name) = true := by
        intro hname
        rw [Value.same_text_iff.mp hname] at hsame
        rw [Value.text_same_iff.mp hsame] at hk
        cases hk
      rw [find?_cons, find?_cons, if_neg he, if_neg he]
    · rw [find?_cons, find?_cons, ih]

theorem node_insert (t : Tree) (name : String) (s : Section) : (t.insert (.text name) (.grouped s)).node name = s := by
  rw [node, find?_insert, if_pos rfl]

theorem node_insert_of_ne (t : Tree) {name other : String} (h : name ≠ other) (entry : Entry) :
    (t.insert (.text name) entry).node other = t.node other := by
  rw [node, find?_insert, if_neg h, ← node]

end Tree

/-! ## Grouping -/

namespace Grouping

variable {g out : Grouping}

theorem node_withSubsection (name sub : String) (settings : Settings) :
    (g.withSubsection name sub settings).tree.node name =
      { g.tree.node name with subsections := (g.tree.node name).subsections ++ [(sub, settings)] } :=
  Tree.node_insert _ _ _

theorem node_withSettings (name : String) (settings : Settings) :
    (g.withSettings name settings).tree.node name = { g.tree.node name with settings } := Tree.node_insert _ _ _

/-- What a key that names a section adds. -/
theorem addSection_eq_ok_iff {key : String} {value : Value} :
    g.addSection key value = .ok out ↔ ∃ header, Header.parse ("[" ++ key ++ "]") = .ok header ∧
      ∃ settings, settingsOf key value = .ok settings ∧ match header.subsection with
      | some sub =>
        (g.tree.node header.name).hasSubsection sub = false ∧ g.withSubsection header.name sub settings = out
      | none => header.name = key ∧ g.seen.contains header.name = false ∧ g.withSettings header.name settings = out := by
  simp only [addSection, Except.bind_eq_ok_iff]
  refine exists_congr fun header => and_congr_right fun _ => exists_congr fun settings => and_congr_right fun _ => ?_
  cases header.subsection with
  | some sub =>
    dsimp only
    cases (g.tree.node header.name).hasSubsection sub with
    | true => exact iff_of_false (fun h => by cases h) (fun h => by cases h.1)
    | false => exact ⟨fun h => ⟨rfl, Except.ok.inj h⟩, fun h => congrArg Except.ok h.2⟩
  | none =>
    dsimp only
    by_cases hn : header.name = key
    · rw [if_neg (not_not.mpr hn)]
      cases g.seen.contains header.name with
      | true => exact iff_of_false (fun h => by cases h) (fun h => by cases h.2.1)
      | false => exact ⟨fun h => ⟨hn, rfl, Except.ok.inj h⟩, fun h => congrArg Except.ok h.2.2⟩
    · rw [if_pos hn]
      exact iff_of_false (fun h => by cases h) (fun h => hn h.1)

end Grouping

end Stanza.Section
