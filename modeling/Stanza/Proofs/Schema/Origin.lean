import Stanza.Proofs.Schema.RoundTrip

/-! # Where resolved values come from

A value of a resolved section is what a raw value of the same name is converted to: the first one written that is not
`null`, or the default.
-/
namespace Stanza

theorem Value.floatLayout_text_ne (x : Float) : Value.floatLayout.text x ≠ "" := by
  have hne : ∀ (negative : Bool) (cs : List Char), cs ≠ [] →
      String.ofList (if negative then '-' :: cs else cs) ≠ "" := by
    intro negative cs hcs
    rw [ne_eq, ← String.toList_inj, String.toList_ofList]
    cases negative with
    | true => simp
    | false => exact hcs
  rw [Decimal.Layout.text]
  split
  · decide
  · exact hne _ _ (by decide)
  · exact hne _ _ (by decide)
  · next m q _ =>
    refine hne _ _ ?_
    rw [Decimal.Layout.write]
    split
    · simp only [Decimal.positional, Value.floatLayout, if_true]
      split
      · simp
      · split <;> simp
    · simp [Decimal.exponential, Decimal.exponentText]

theorem Settings.get?_append (es fs : Settings) (name : String) :
    Settings.get? (es ++ fs) name = (es.get? name).or (fs.get? name) := by
  rw [Settings.get?, List.find?_append, Option.map_or]
  rfl

theorem Settings.get?_filter {es : Settings} {name : String} {p : Value × Value → Bool}
    (h : ∀ e ∈ es, e.1 = .text name → p e = true) : Settings.get? (es.filter p) name = es.get? name := by
  induction es with
  | nil => rfl
  | cons e es ih =>
    have hrest := ih fun f hf => h f (List.mem_cons_of_mem _ hf)
    rw [List.filter_cons, get?_cons, ← hrest]
    by_cases hp : p e = true
    · rw [if_pos hp, get?_cons]
    · have hname : ¬ Settings.hasName name e = true :=
        fun hn => hp (h e List.mem_cons_self (Settings.hasName_iff.mp hn))
      rw [if_neg hp, if_neg hname]

namespace Schema

/-- Only an empty text is converted to one. -/
theorem textOf_eq_empty_iff {raw : Value} : textOf raw = .ok "" ↔ raw = .text "" := by
  cases raw with
  | text s => simp [textOf]
  | int n =>
    refine iff_of_false (fun h => ?_) (by simp)
    have hw : Text.writeInteger n = .ok "" := Except.mapError_eq_ok_iff.mp h
    rw [Text.writeInteger] at hw
    split at hw
    · cases hw
    · have hd : (toString n.natAbs).toList ≠ [] := by
        rw [Nat.toString_eq_ofList_toDigits, String.toList_ofList]
        exact Nat.toDigits_ne_nil
      have he := Except.ok.inj hw
      rw [← String.toList_inj] at he
      split at he
      · simp at he
      · exact hd he
  | float x =>
    refine iff_of_false (fun h => ?_) (by simp)
    simp only [textOf, rejectedDigits, Except.mapError_eq_ok_iff] at h
    exact Value.floatLayout_text_ne x (Except.ok.inj h)
  | _ => simp [textOf]

section

variable {spec : SectionSpec} {raw out : Settings} {heading name : String}

theorem get?_of_converts {spec : Spec Outgoing} {data : Settings} (h : List.Forall₂ (Converts spec) data out)
    {field : Outgoing} (hg : spec.get? name = some field) :
    (∀ v, out.get? name = some v → ∃ value, data.get? name = some value ∧ convert field value = .ok v) ∧
    ∀ value, data.get? name = some value → ∃ v, out.get? name = some v ∧ convert field value = .ok v := by
  induction h with
  | nil => exact ⟨nofun, nofun⟩
  | @cons e f es fs hef _ ih =>
    obtain ⟨hk, hc⟩ := hef
    simp only [Settings.get?_cons]
    by_cases hn : e.1 = .text name
    · have he : Settings.hasName name e = true := Settings.hasName_iff.mpr hn
      have hf : Settings.hasName name f = true := Settings.hasName_iff.mpr (hk ▸ hn)
      rw [hn, fieldOf?, hg] at hc
      simp only [he, hf, if_true, Option.some.injEq, exists_eq_left', forall_eq']
      exact ⟨hc, hc⟩
    · have he : Settings.hasName name e = false := Bool.eq_false_iff.mpr fun h => hn (Settings.hasName_iff.mp h)
      have hf : Settings.hasName name f = false :=
        Bool.eq_false_iff.mpr fun h => hn (hk.trans (Settings.hasName_iff.mp h))
      simpa only [he, hf, Bool.false_eq_true, if_false] using ih

/-- Stripping leaves what a field is written as. -/
theorem get?_stripUnknown {spec : Spec Incoming} {field : Incoming} (hf : field ∈ spec.fields) (data : Settings) :
    (spec.stripUnknown data).get? field.name = data.get? field.name := by
  refine Settings.get?_filter fun e _ he => ?_
  rw [he]
  exact Spec.declares_of_mem hf

/-- What is written under a name that a field without a default has is what is left for its conversion. -/
theorem get?_fillDefaults {spec : Spec Incoming} (hn : (spec.fields.map Incoming.name).Nodup) {field : Incoming}
    (hf : field ∈ spec.fields) (hd : field.default.value.isNull = true) (raw : Settings) :
    (fillDefaults spec (spec.stripUnknown raw)).get? field.name = (written raw).get? field.name := by
  have hdefaults : Settings.get? ((spec.fields.filter (isMissing (written (spec.stripUnknown raw)))).map defaultEntry)
      field.name = none := by
    rw [← Option.not_isSome_iff_eq_none, ← Settings.has_eq_isSome, Settings.has_iff_mem_keys]
    intro hm
    obtain ⟨e, he, hk⟩ := List.mem_map.mp hm
    obtain ⟨other, ho, rfl⟩ := List.mem_map.mp he
    obtain ⟨hmem, hmissing⟩ := List.mem_filter.mp ho
    cases List.inj_on_of_nodup_map hn hmem hf (Value.text.inj hk)
    simp [isMissing, hd] at hmissing
  have hcomm : written (spec.stripUnknown raw) = spec.stripUnknown (written raw) := List.filter_comm _ _ _
  rw [fillDefaults_eq hn, Settings.get?_append, hdefaults, Option.or_none, hcomm, get?_stripUnknown hf]

/-- Of a resolved section. -/
theorem exists_raw_of_resolveSection (hc : Coherent spec) (h : (resolveSection spec raw heading).result = .ok out)
    {field : Outgoing} (hg : spec.outgoing.get? name = some field) {v : Value} (hv : out.get? name = some v) :
    ∃ value, convert field value = .ok v ∧ ((.text name, value) ∈ raw ∨
      ∃ incoming ∈ spec.incoming.fields, incoming.name = name ∧ incoming.default.value = value ∧ value.isNull = false) := by
  obtain ⟨_, hconverts, _⟩ := resolveSection_eq_ok_iff.mp h
  obtain ⟨value, hvalue, hconvert⟩ := (get?_of_converts hconverts hg).1 v hv
  refine ⟨value, hconvert, ?_⟩
  rcases mem_fillDefaults hc.nodup_incoming (Settings.mem_of_get? hvalue) with hm | ⟨incoming, hi, hn, he⟩
  · exact .inl (List.mem_of_mem_filter hm)
  · cases he
    exact .inr ⟨incoming, hi, rfl, rfl, hn⟩

end

end Schema

end Stanza
