import Mathlib.Data.List.Forall2
import Mathlib.Data.List.Nodup
import Stanza.Value.Settings

/-! # Look-up and change of settings

What is found under a name after a change, which entries a change leaves, and when it changes nothing. A
mapping has no key twice; among text keys that is plain inequality.
-/
namespace Stanza

theorem Value.same_text_iff {x : Value} {name : String} : x.same (.text name) = true ↔ x = .text name := by
  cases x <;> simp [Value.same, Value.number?]

theorem Value.text_same_iff {x : Value} {name : String} : (Value.text name).same x = true ↔ x = .text name := by
  cases x <;> simp [Value.same, Value.number?]
  exact eq_comm

theorem Value.exists_text_of_isText {x : Value} (h : x.isText = true) : ∃ name, x = .text name := by
  cases x with
  | text name => exact ⟨name, rfl⟩
  | _ => cases h

namespace Settings

theorem hasName_iff {name : String} {e : Value × Value} : hasName name e = true ↔ e.1 = .text name := by
  rcases e with ⟨k, v⟩
  cases k <;> simp [hasName]

theorem hasName_eq_same (name : String) (e : Value × Value) : hasName name e = e.1.same (.text name) := by
  rw [Bool.eq_iff_iff, hasName_iff, Value.same_text_iff]

def TextKeys (es : Settings) : Prop := ∀ k ∈ keys es, ∃ name, k = .text name

theorem keys_eq_of_forall₂ {es fs : Settings} (h : List.Forall₂ (fun e f => e.1 = f.1) es fs) : keys es = keys fs := by
  induction h with
  | nil => rfl
  | cons he _ ih => exact congrArg₂ List.cons he ih

/-! ## Looking up -/

@[simp] theorem get?_nil (name : String) : get? [] name = none := rfl

theorem get?_cons (e : Value × Value) (es : Settings) (name : String) :
    get? (e :: es) name = if hasName name e then some e.2 else get? es name := by
  unfold get?
  by_cases h : hasName name e = true
  · rw [List.find?_cons_of_pos h, if_pos h, Option.map_some]
  · rw [List.find?_cons_of_neg h, if_neg h]

theorem keys_map (es : Settings) (f : Value → Value) : keys (es.map fun e => (e.1, f e.2)) = keys es := by
  rw [keys, keys, List.map_map]
  rfl

theorem get?_map (es : Settings) (f : Value → Value) (name : String) :
    get? (es.map fun e => (e.1, f e.2)) name = (es.get? name).map f := by
  induction es with
  | nil => rfl
  | cons e es ih =>
    have hk : hasName name (e.1, f e.2) = hasName name e := by rw [hasName_eq_same, hasName_eq_same]
    rw [List.map_cons, get?_cons, get?_cons, ih, hk]
    split <;> rfl

theorem mem_of_get? {es : Settings} {name : String} {v : Value} (h : es.get? name = some v) :
    (.text name, v) ∈ es := by
  induction es with
  | nil => cases h
  | cons e es ih =>
    rw [get?_cons] at h
    split at h
    · next hk =>
      cases h
      exact List.mem_cons.mpr (.inl (Prod.ext (hasName_iff.mp hk).symm rfl))
    · exact List.mem_cons_of_mem _ (ih h)

theorem get?_of_mem {es : Settings} (hn : (keys es).Nodup) {name : String} {v : Value}
    (h : (.text name, v) ∈ es) : es.get? name = some v := by
  induction es with
  | nil => cases h
  | cons e es ih =>
    rw [keys, List.map_cons, List.nodup_cons] at hn
    rw [get?_cons]
    rcases List.mem_cons.mp h with rfl | h
    · rw [if_pos (hasName_iff.mpr rfl)]
    · rw [if_neg, ih hn.2 h]
      intro hk
      exact hn.1 (hasName_iff.mp hk ▸ List.mem_map_of_mem h)

theorem has_eq_isSome (es : Settings) (name : String) : es.has name = (es.get? name).isSome := by
  rw [has, get?, Option.isSome_map, Bool.eq_iff_iff, List.find?_isSome, List.any_eq_true]

theorem has_iff_get? {es : Settings} {name : String} : es.has name = true ↔ ∃ v, es.get? name = some v := by
  rw [has_eq_isSome, Option.isSome_iff_exists]

theorem has_iff_mem_keys {es : Settings} {name : String} : es.has name = true ↔ .text name ∈ keys es := by
  rw [has, List.any_eq_true, keys, List.mem_map]
  simp only [hasName_iff]

theorem get_of_get? {es : Settings} {name : String} {v : Value} (h : es.get? name = some v) :
    es.get name = v := by rw [get, h, Option.getD_some]

theorem get?_of_get {es : Settings} {name : String} (h : (es.get name).isNull = false) :
    es.get? name = some (es.get name) := by
  rw [get] at h ⊢
  cases hv : es.get? name with
  | none => rw [hv] at h; cases h
  | some v => rfl

theorem get?_of_isTrue {es : Settings} {name : String} (h : (es.get name).isTrue = true) :
    es.get? name = some (es.get name) := by
  refine get?_of_get ?_
  cases hv : es.get name with
  | null => rw [hv] at h; cases h
  | _ => rfl

/-- Among entries with different keys the order plays no part. -/
theorem get?_perm {es fs : Settings} (h : es.Perm fs) (hn : (keys es).Nodup) (name : String) :
    es.get? name = fs.get? name := by
  have hf : (keys fs).Nodup := (h.map _).nodup_iff.mp hn
  cases hv : fs.get? name with
  | some v => exact get?_of_mem hn (h.mem_iff.mpr (mem_of_get? hv))
  | none =>
    cases hw : es.get? name with
    | none => rfl
    | some w => rw [← hv, get?_of_mem hf (h.mem_iff.mp (mem_of_get? hw))]

/-- The same mapping: no key stands twice, and the entries are the same in some order. -/
structure SameMapping (es fs : Settings) : Prop where
  perm : es.Perm fs
  nodup : (keys fs).Nodup

theorem SameMapping.get? {es fs : Settings} (h : SameMapping es fs) (name : String) : es.get? name = fs.get? name :=
  (get?_perm h.perm.symm h.nodup name).symm

theorem SameMapping.get {es fs : Settings} (h : SameMapping es fs) (name : String) : es.get name = fs.get name := by
  rw [Settings.get, h.get?, ← Settings.get]

theorem has_filter {es : Settings} {name : String} {v : Value} (hv : es.get? name = some v)
    {p : Value × Value → Bool} (hp : p (.text name, v) = true) : has (es.filter p) name = true := by
  rw [has_iff_mem_keys]
  exact List.mem_map.mpr ⟨_, List.mem_filter.mpr ⟨mem_of_get? hv, hp⟩, rfl⟩

theorem has_filter_of_mem {es : Settings} (hn : (keys es).Nodup) {name : String} {v : Value}
    (h : (.text name, v) ∈ es) (p : Value × Value → Bool) : has (es.filter p) name = p (.text name, v) := by
  rw [Bool.eq_iff_iff, has_iff_mem_keys, keys, List.mem_map]
  constructor
  · rintro ⟨e, he, hk⟩
    obtain ⟨hm, hp⟩ := List.mem_filter.mp he
    rwa [← List.inj_on_of_nodup_map hn hm h hk]
  · exact fun hp => ⟨_, List.mem_filter.mpr ⟨h, hp⟩, rfl⟩

/-- Entries of a mapping that have all of its keys are all of its entries. -/
theorem perm_of_subset {es fs : Settings} (he : (keys es).Nodup) (hf : (keys fs).Nodup) (hsub : es ⊆ fs)
    (hkeys : keys fs ⊆ keys es) : es.Perm fs := by
  refine (List.perm_ext_iff_of_nodup (List.Nodup.of_map _ he) (List.Nodup.of_map _ hf)).mpr fun f => ⟨fun h => hsub h, fun h => ?_⟩
  obtain ⟨e, hm, hk⟩ := List.mem_map.mp (hkeys (List.mem_map_of_mem h))
  rwa [← List.inj_on_of_nodup_map hf (hsub hm) h hk]

theorem has_perm {es fs : Settings} (h : es.Perm fs) (name : String) : es.has name = fs.has name := by
  rw [Bool.eq_iff_iff, has_iff_mem_keys, has_iff_mem_keys]
  exact (h.map _).mem_iff

/-! ## Setting -/

theorem set_cons (e : Value × Value) (es : Settings) (name : String) (v : Value) :
    set (e :: es) name v = if hasName name e then (e.1, v) :: es else e :: set es name v := by
  rw [hasName_eq_same]
  rfl

theorem get?_set (es : Settings) (name other : String) (v : Value) :
    (es.set name v).get? other = if name = other then some v else es.get? other := by
  induction es with
  | nil => simp [set, insert, get?_cons, hasName]
  | cons e es ih =>
    rw [set_cons]
    by_cases he : hasName name e = true
    · have hk : ∀ w, hasName other (e.1, w) = decide (name = other) := by
        intro w
        rw [Bool.eq_iff_iff, hasName_iff, hasName_iff.mp he]
        simp
      rw [if_pos he, get?_cons, get?_cons, hk v, show hasName other e = decide (name = other) from hk e.2]
      by_cases hn : name = other <;> simp [hn]
    · rw [if_neg he, get?_cons, ih, get?_cons]
      by_cases hn : name = other
      · rw [if_neg (hn ▸ he), if_pos hn, if_pos hn]
      · rw [if_neg hn, if_neg hn]

theorem get?_set_self (es : Settings) (name : String) (v : Value) : (es.set name v).get? name = some v := by
  rw [get?_set, if_pos rfl]

theorem get?_set_of_ne (es : Settings) {name other : String} (h : name ≠ other) (v : Value) :
    (es.set name v).get? other = es.get? other := by rw [get?_set, if_neg h]

theorem has_set (es : Settings) (name other : String) (v : Value) :
    (es.set name v).has other = (decide (name = other) || es.has other) := by
  rw [has_eq_isSome, has_eq_isSome, get?_set]
  by_cases h : name = other <;> simp [h]

theorem get?_setDefault (es : Settings) (name other : String) (v : Value) :
    (es.setDefault name v).get? other = if name = other then some ((es.get? name).getD v) else es.get? other := by
  rw [setDefault, has_eq_isSome]
  cases h : es.get? name with
  | none => simp [get?_set]
  | some w =>
    by_cases hn : name = other
    · subst hn
      simp [h]
    · simp [hn]

theorem setDefault_of_has {es : Settings} {name : String} (h : es.has name = true) (v : Value) :
    es.setDefault name v = es := by rw [setDefault, if_pos h]

theorem mem_of_mem_set {es : Settings} {name : String} {v : Value} {e : Value × Value}
    (h : e ∈ es.set name v) : e ∈ es ∨ e = (.text name, v) := by
  induction es with
  | nil => exact .inr (List.mem_singleton.mp h)
  | cons d es ih =>
    rw [set_cons] at h
    split at h
    · next hk =>
      rcases List.mem_cons.mp h with rfl | h
      · exact .inr (by rw [hasName_iff.mp hk])
      · exact .inl (List.mem_cons_of_mem _ h)
    · rcases List.mem_cons.mp h with rfl | h
      · exact .inl List.mem_cons_self
      · exact (ih h).imp_left (List.mem_cons_of_mem _)

/-- Setting what is there already changes nothing. -/
theorem set_of_get? {es : Settings} {name : String} {v : Value} (h : es.get? name = some v) :
    es.set name v = es := by
  induction es with
  | nil => cases h
  | cons e es ih =>
    rw [get?_cons] at h
    rw [set_cons]
    split at h
    · next hk => cases h; rw [if_pos hk]
    · next hk => rw [if_neg hk, ih h]

theorem insert_of_forall {es : Settings} {k : Value} (h : ∀ e ∈ es, e.1.same k = false) (v : Value) :
    es.insert k v = es ++ [(k, v)] := by
  induction es with
  | nil => rfl
  | cons e es ih =>
    rw [insert, if_neg (by simp [h e List.mem_cons_self]), ih fun f hf => h f (List.mem_cons_of_mem _ hf)]
    rfl

theorem set_of_not_has {es : Settings} {name : String} (h : es.has name = false) (v : Value) :
    es.set name v = es ++ [(.text name, v)] := by
  refine insert_of_forall (fun e he => ?_) v
  rw [← hasName_eq_same]
  exact List.any_eq_false.mp h e he |> Bool.eq_false_iff.mpr

theorem keys_set_of_has {es : Settings} {name : String} (h : es.has name = true) (v : Value) :
    keys (es.set name v) = keys es := by
  induction es with
  | nil => cases h
  | cons e es ih =>
    rw [set_cons]
    split
    · rfl
    · next hk =>
      have hr : has es name = true := by
        rw [has_iff_mem_keys, keys, List.map_cons, List.mem_cons] at h
        exact has_iff_mem_keys.mpr (h.resolve_left fun he => hk (hasName_iff.mpr he.symm))
      exact congrArg (e.1 :: ·) (ih hr)

theorem mem_keys_insert {es : Settings} {key v k : Value} (h : k ∈ keys (es.insert key v)) : k ∈ keys es ∨ k = key := by
  induction es with
  | nil => exact .inr (List.mem_singleton.mp h)
  | cons e es ih =>
    rw [insert] at h
    split at h
    · exact .inl h
    · rcases List.mem_cons.mp h with rfl | h
      · exact .inl List.mem_cons_self
      · exact (ih h).imp_left (List.mem_cons_of_mem _)

theorem nodup_keys_set {es : Settings} (hn : (keys es).Nodup) (name : String) (v : Value) :
    (keys (es.set name v)).Nodup := by
  cases h : es.has name with
  | true => rw [keys_set_of_has h]; exact hn
  | false =>
    rw [set_of_not_has h, keys, List.map_append]
    refine List.nodup_append'.mpr ⟨hn, List.nodup_singleton _, ?_⟩
    intro k hk hs
    rw [List.map_singleton, List.mem_singleton] at hs
    rw [hs] at hk
    rw [has_iff_mem_keys.mpr hk] at h
    cases h

/-! ## Mappings -/

def Distinct (es : Settings) : Prop := es.Pairwise fun e f => e.1.same f.1 = false

instance (es : Settings) : Decidable (Distinct es) :=
  inferInstanceAs (Decidable (List.Pairwise (fun e f : Value × Value => e.1.same f.1 = false) es))

theorem Distinct.filter {es : Settings} (h : Distinct es) (p : Value × Value → Bool) :
    Distinct (es.filter p) := List.Pairwise.filter p h

theorem Distinct.nodup_keys {es : Settings} (h : Distinct es) (ht : TextKeys es) :
    (keys es).Nodup := by
  induction es with
  | nil => exact List.nodup_nil
  | cons e es ih =>
    obtain ⟨he, hr⟩ := List.pairwise_cons.mp h
    refine List.nodup_cons.mpr ⟨?_, ih hr fun k hk => ht k (List.mem_cons_of_mem _ hk)⟩
    intro hk
    obtain ⟨f, hf, hfe⟩ := List.mem_map.mp hk
    obtain ⟨name, hname⟩ := ht e.1 List.mem_cons_self
    have hd := he f hf
    rw [show f.1 = .text name from hfe.trans hname, Value.same_text_iff.mpr hname] at hd
    cases hd

theorem distinct_of_nodup_keys {es : Settings} (hn : (keys es).Nodup) (ht : TextKeys es) : Distinct es := by
  induction es with
  | nil => exact List.Pairwise.nil
  | cons e es ih =>
    obtain ⟨he, hn⟩ := List.nodup_cons.mp hn
    refine List.pairwise_cons.mpr ⟨fun f hf => ?_, ih hn fun k hk => ht k (List.mem_cons_of_mem _ hk)⟩
    obtain ⟨name, hname⟩ := ht e.1 List.mem_cons_self
    rw [hname, Bool.eq_false_iff]
    intro hs
    exact he (List.mem_map.mpr ⟨f, hf, (Value.text_same_iff.mp hs).trans hname.symm⟩)

theorem distinct_insert {es : Settings} (h : Distinct es) (key v : Value) : Distinct (es.insert key v) := by
  induction es with
  | nil => exact List.pairwise_singleton _ _
  | cons e es ih =>
    obtain ⟨he, hr⟩ := List.pairwise_cons.mp h
    rw [insert]
    split
    · exact List.pairwise_cons.mpr ⟨he, hr⟩
    · next hk =>
      refine List.pairwise_cons.mpr ⟨fun f hf => ?_, ih hr⟩
      rcases mem_keys_insert (List.mem_map_of_mem hf) with hm | hm
      · obtain ⟨d, hd, hde⟩ := List.mem_map.mp hm
        exact hde ▸ he d hd
      · rw [hm]
        simpa using hk

theorem distinct_overlay {under : Settings} (h : Distinct under) (above : Settings) : Distinct (under.overlay above) := by
  induction above generalizing under with
  | nil => exact h
  | cons e above ih => exact ih (distinct_insert h e.1 e.2)

theorem mem_keys_overlay {under above : Settings} {k : Value} (h : k ∈ keys (under.overlay above)) :
    k ∈ keys under ∨ k ∈ keys above := by
  induction above generalizing under with
  | nil => exact .inl h
  | cons e above ih =>
    rcases ih h with h | h
    · exact (mem_keys_insert h).imp_right fun hk => List.mem_cons.mpr (.inl hk)
    · exact .inr (List.mem_cons_of_mem _ h)

/-- What is laid over hides what is under it. -/
theorem get?_overlay {under above : Settings} (hn : (keys above).Nodup) (ht : TextKeys above) (name : String) :
    (under.overlay above).get? name = (above.get? name).or (under.get? name) := by
  induction above generalizing under with
  | nil => rfl
  | cons e above ih =>
    obtain ⟨key, hkey⟩ := ht e.1 List.mem_cons_self
    obtain ⟨he, hn⟩ := List.nodup_cons.mp hn
    have hstep : under.overlay (e :: above) = (under.set key e.2).overlay above := by
      rw [set, ← hkey]
      rfl
    rw [hstep, ih hn fun k hk => ht k (List.mem_cons_of_mem _ hk), get?_set, get?_cons]
    by_cases h : key = name
    · have hnone : get? above name = none := by
        rw [← Option.not_isSome_iff_eq_none, ← has_eq_isSome, has_iff_mem_keys]
        exact h ▸ hkey ▸ he
      rw [if_pos h, if_pos (hasName_iff.mpr (h ▸ hkey)), hnone]
      rfl
    · rw [if_neg h, if_neg]
      rw [hasName_iff, hkey]
      exact fun hk => h (Value.text.inj hk)

/-- Entries under keys that are not there yet are added at the end. -/
theorem Distinct.overlay_eq_append {under es : Settings} (h : Distinct (under ++ es)) : overlay under es = under ++ es := by
  induction es generalizing under with
  | nil => rw [List.append_nil]; rfl
  | cons e es ih =>
    have hi : ∀ f ∈ under, f.1.same e.1 = false := fun f hf =>
      (List.pairwise_append.mp h).2.2 f hf e List.mem_cons_self
    have hs : overlay under (e :: es) = overlay (under.insert e.1 e.2) es := rfl
    rw [hs, insert_of_forall hi, ih (by simpa using h)]
    simp

/-- The entries of a mapping are what is laid over nothing. -/
theorem Distinct.overlay_nil {es : Settings} (h : Distinct es) : overlay [] es = es := overlay_eq_append h

/-! ## Sameness -/

theorem sameEntries_iff {es fs : Settings} :
    Value.sameEntries es fs = true ↔ ∀ e ∈ es, ∃ f ∈ fs, e.1.same f.1 = true ∧ e.2.same f.2 = true := by
  induction es with
  | nil => simp [Value.sameEntries]
  | cons e es ih =>
    simp only [Value.sameEntries, Bool.and_eq_true, List.any_eq_true, ih, List.forall_mem_cons]

/-- Mappings with the same text keys are the same if they have the same values under each. -/
theorem same_map_iff {es fs : Settings} (hk : keys es = keys fs) (hn : (keys fs).Nodup)
    (ht : TextKeys fs) :
    (Value.map es).same (.map fs) = true ↔
      ∀ name v w, es.get? name = some v → fs.get? name = some w → v.same w = true := by
  have hl : es.length = fs.length := by simpa [keys] using congrArg List.length hk
  rw [Value.same, hl, beq_self_eq_true, Bool.true_and, sameEntries_iff]
  constructor
  · intro h name v w hv hw
    obtain ⟨⟨k, u⟩, hf, hsk, hsv⟩ := h _ (mem_of_get? hv)
    cases Value.text_same_iff.mp hsk
    rw [get?_of_mem hn hf] at hw
    exact Option.some.inj hw ▸ hsv
  · rintro h ⟨k, v⟩ he
    have hkey : k ∈ keys fs := hk ▸ List.mem_map_of_mem he
    obtain ⟨name, rfl⟩ := ht k hkey
    obtain ⟨w, hw⟩ := has_iff_get?.mp (has_iff_mem_keys.mpr hkey)
    exact ⟨_, mem_of_get? hw, Value.same_text_iff.mpr rfl, h name v w (get?_of_mem (hk ▸ hn) he) hw⟩

end Settings

end Stanza
