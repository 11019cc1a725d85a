import Mathlib.Logic.Unique
import Stanza.Proofs.Schema.TextList
import Stanza.Proofs.Time.PeriodText
import Stanza.Proofs.Time.Span
import Stanza.Schema.Check

/-! # Resolved values and their raw form

`Settled` says what conversion to a field can give. A settled value can be written unless it is an integer
of too many digits. What is written has the shape of the field and is converted again, to the same value
unless it is a list with a mark in one of its parts.
-/
namespace Stanza

def Value.Writable : Value → Prop
  | .int n => Text.Writable n
  | .foreign x => x.literal?.isSome = true
  | _ => True

instance : (v : Value) → Decidable v.Writable
  | .int n => inferInstanceAs (Decidable (Text.Writable n))
  | .foreign x => inferInstanceAs (Decidable (x.literal?.isSome = true))
  | .null | .bool _ | .float _ | .text _ | .list _ | .tuple _ | .map _ | .period _ | .span _ | .path _ | .moment _ =>
    inferInstanceAs (Decidable True)

namespace Schema

inductive Settled (field : Outgoing) : Value → Prop
  | integer {n : Int} (hk : field.kind = .integer) (hm : atLeast field.minimum n = .ok ()) :
    Settled field (.int n)
  | boolean (hk : field.kind = .boolean) (b : Bool) : Settled field (.bool b)
  | text (hk : field.kind = .text) (s : String) : Settled field (.text s)
  | minutes {n : Int} {s : Span} (hk : field.kind = .minutes) (hm : atLeast field.minimum n = .ok ())
      (hs : Span.ofMinutes n = .ok s) : Settled field (.span s)
  | days {n : Int} {s : Span} (hk : field.kind = .days) (hm : atLeast field.minimum n = .ok ())
      (hs : Span.ofDays n = .ok s) : Settled field (.span s)
  | period {p : Period} (hk : field.kind = .period) (hp : p.Writable) : Settled field (.period p)
  | choice {s : String} (hk : field.kind = .choice) (hc : field.choices.contains s = true)
      (ht : Text.trimmed s = s) : Settled field (.text s)
  | texts {parts : List String} (hk : field.kind = .texts) (hp : ∀ s ∈ parts, IsPart s) :
    Settled field (Value.ofTexts parts)

/-! ## Conversion by kind -/

section

variable {field : Outgoing} {raw v : Value}

theorem convert_integer_iff (hk : field.kind = .integer) :
    convert field raw = .ok v ↔ ∃ n, wholeNumber raw = .ok n ∧ atLeast field.minimum n = .ok () ∧ .int n = v := by
  simp only [convert, hk, Except.bind_eq_ok_iff, Except.mapError_eq_ok_iff, Unique.exists_iff, pure, Except.pure,
    Except.ok.injEq, PUnit.default_eq_unit]

theorem convert_boolean_iff (hk : field.kind = .boolean) :
    convert field raw = .ok v ↔ ∃ b, boolean raw = .ok b ∧ .bool b = v := by
  simp only [convert, hk, Except.map_eq_ok_iff, Except.mapError_eq_ok_iff]

theorem convert_text_iff (hk : field.kind = .text) :
    convert field raw = .ok v ↔ ∃ s, textOf raw = .ok s ∧ .text s = v := by
  simp only [convert, hk, Except.map_eq_ok_iff, Except.mapError_eq_ok_iff]

theorem convert_minutes_iff (hk : field.kind = .minutes) :
    convert field raw = .ok v ↔ ∃ n, wholeNumber raw = .ok n ∧ atLeast field.minimum n = .ok () ∧
      ∃ s, Span.ofMinutes n = .ok s ∧ .span s = v := by
  simp only [convert, hk, Except.bind_eq_ok_iff, Except.map_eq_ok_iff, Except.mapError_eq_ok_iff, Unique.exists_iff,
    PUnit.default_eq_unit]

theorem convert_days_iff (hk : field.kind = .days) :
    convert field raw = .ok v ↔ ∃ n, wholeNumber raw = .ok n ∧ atLeast field.minimum n = .ok () ∧
      ∃ s, Span.ofDays n = .ok s ∧ .span s = v := by
  simp only [convert, hk, Except.bind_eq_ok_iff, Except.map_eq_ok_iff, Except.mapError_eq_ok_iff, Unique.exists_iff,
    PUnit.default_eq_unit]

theorem convert_period_iff (hk : field.kind = .period) :
    convert field raw = .ok v ↔ ∃ s, textOf raw = .ok s ∧ ∃ p, period s = .ok p ∧ .period p = v := by
  simp only [convert, hk, Except.bind_eq_ok_iff, Except.map_eq_ok_iff, Except.mapError_eq_ok_iff]

theorem convert_choice_iff (hk : field.kind = .choice) :
    convert field raw = .ok v ↔ ∃ s, textOf raw = .ok s ∧ field.choices.contains (Text.trimmed s) = true ∧
      .text (Text.trimmed s) = v := by
  simp only [convert, hk, Except.bind_eq_ok_iff, Except.mapError_eq_ok_iff]
  refine exists_congr fun s => and_congr_right fun _ => ?_
  by_cases hc : field.choices.contains (Text.trimmed s) = true
  · rw [if_pos hc]
    simp only [hc, true_and, pure, Except.pure, Except.ok.injEq]
  · rw [if_neg hc]
    simp only [hc, Bool.false_eq_true, false_and, iff_false]
    exact fun h => by cases h

theorem convert_texts_iff (hk : field.kind = .texts) :
    convert field raw = .ok v ↔ ∃ parts, textList raw = .ok parts ∧ Value.ofTexts parts = v := by
  simp only [convert, hk, Except.map_eq_ok_iff, Except.mapError_eq_ok_iff]

/-- Whole numbers of every kind are converted by the integer they stand for. -/
theorem convert_of_wholeNumber (hk : field.kind = .integer ∨ field.kind = .minutes ∨ field.kind = .days)
    {other : Value} (h : wholeNumber raw = wholeNumber other) : convert field raw = convert field other := by
  rcases hk with hk | hk | hk <;> simp only [convert, hk, h]

end

/-! ## Conversion settles -/

theorem wholeNumber_writable {raw : Value} {n : Int} (hr : raw.Writable) (h : wholeNumber raw = .ok n) :
    Text.Writable n := by
  unfold wholeNumber at h
  split at h
  · cases h; exact hr
  · split at h
    · next m hm =>
      rw [rejectedDigits, Except.mapError_eq_ok_iff] at h
      exact Text.writable_of_readInteger? (h ▸ hm)
    · cases h
  · obtain ⟨_, _, h⟩ := Except.bind_eq_ok_iff.mp h
    cases h

theorem period_writable {s : String} {p : Period} (h : period s = .ok p) : p.Writable := by
  rw [period] at h
  split at h
  · next q hq =>
    rw [rejectedDigits, Except.mapError_eq_ok_iff] at h
    exact Period.writable_of_read? (h ▸ hq)
  · cases h

theorem isPart_of_mem_textList {raw : Value} {parts : List String} (h : textList raw = .ok parts) :
    ∀ s ∈ parts, IsPart s := by
  unfold textList at h
  split at h
  · cases h; exact fun s hs => isPart_of_mem_trimParts hs
  · obtain ⟨_, _, rfl⟩ := Except.map_eq_ok_iff.mp h
    exact fun s hs => isPart_of_mem_trimParts hs
  · obtain ⟨_, _, rfl⟩ := Except.map_eq_ok_iff.mp h
    exact fun s hs => isPart_of_mem_trimParts hs
  · cases h

theorem settled_of_convert {field : Outgoing} {raw v : Value} (h : convert field raw = .ok v) : Settled field v := by
  cases hk : field.kind with
  | integer =>
    obtain ⟨n, _, hm, rfl⟩ := (convert_integer_iff hk).mp h
    exact .integer hk hm
  | boolean =>
    obtain ⟨b, _, rfl⟩ := (convert_boolean_iff hk).mp h
    exact .boolean hk b
  | text =>
    obtain ⟨s, _, rfl⟩ := (convert_text_iff hk).mp h
    exact .text hk s
  | minutes =>
    obtain ⟨n, _, hm, s, hs, rfl⟩ := (convert_minutes_iff hk).mp h
    exact .minutes hk hm hs
  | days =>
    obtain ⟨n, _, hm, s, hs, rfl⟩ := (convert_days_iff hk).mp h
    exact .days hk hm hs
  | period =>
    obtain ⟨_, _, p, hp, rfl⟩ := (convert_period_iff hk).mp h
    exact .period hk (period_writable hp)
  | choice =>
    obtain ⟨s, _, hc, rfl⟩ := (convert_choice_iff hk).mp h
    exact .choice hk hc (Text.trimmed_trimmed s)
  | texts =>
    obtain ⟨parts, hp, rfl⟩ := (convert_texts_iff hk).mp h
    exact .texts hk (isPart_of_mem_textList hp)

/-- Conversion makes no integer that is longer than the raw one. -/
theorem writable_of_convert {field : Outgoing} {raw v : Value} (hr : raw.Writable) (h : convert field raw = .ok v) :
    v.Writable := by
  cases settled_of_convert h with
  | integer hk hm =>
    obtain ⟨n, hn, _, hv⟩ := (convert_integer_iff hk).mp h
    cases hv
    exact wholeNumber_writable hr hn
  | _ => trivial

theorem Settled.isKind {field : Outgoing} {v : Value} (h : Settled field v) : isKind field v = true := by
  cases h with
  | integer hk hm => rw [Schema.isKind.eq_def, hk]
  | boolean hk b => rw [Schema.isKind.eq_def, hk]
  | text hk s => rw [Schema.isKind.eq_def, hk]
  | minutes hk hm hs => rw [Schema.isKind.eq_def, hk]
  | days hk hm hs => rw [Schema.isKind.eq_def, hk]
  | period hk hp => rw [Schema.isKind.eq_def, hk]
  | choice hk hc ht => rw [Schema.isKind.eq_def, hk]; exact hc
  | texts hk hp => rw [Schema.isKind.eq_def, hk]; simp [Value.ofTexts, Value.isText]

theorem Settled.exists_text {field : Outgoing} {v : Value} (h : Settled field v) (hk : field.kind = .text) :
    ∃ s, v = .text s := by
  cases h with
  | text _ s => exact ⟨s, rfl⟩
  | _ => simp_all

theorem Settled.exists_period {field : Outgoing} {v : Value} (h : Settled field v) (hk : field.kind = .period) :
    ∃ p, p.Writable ∧ v = .period p := by
  cases h with
  | @period p _ hp => exact ⟨p, hp, rfl⟩
  | _ => simp_all

theorem Settled.isNull {field : Outgoing} {v : Value} (h : Settled field v) : v.isNull = false := by
  cases h <;> rfl

theorem sameItems_map_text {xs ys : List String} :
    Value.sameItems (xs.map .text) (ys.map .text) = true ↔ xs = ys := by
  induction xs generalizing ys with
  | nil => cases ys <;> simp [Value.sameItems]
  | cons x xs ih => cases ys <;> simp [Value.sameItems, Value.same, ih]

/-- Two values settled for one field are the same only if they are equal. -/
theorem Settled.same_iff {field : Outgoing} {v w : Value} (hv : Settled field v) (hw : Settled field w) :
    v.same w = true ↔ v = w := by
  cases hv with
  | integer hk _ =>
    cases hw with
    | integer => simp [Value.same, Value.number?, Value.Number.same]
    | _ => simp_all
  | boolean hk b =>
    cases hw with
    | boolean _ c => cases b <;> cases c <;> simp [Value.same, Value.number?, Value.Number.same]
    | _ => simp_all
  | text hk s =>
    cases hw with
    | text => simp [Value.same]
    | _ => simp_all
  | minutes hk _ _ =>
    cases hw with
    | minutes => simp [Value.same, Span.ext_iff]
    | _ => simp_all
  | days hk _ _ =>
    cases hw with
    | days => simp [Value.same, Span.ext_iff]
    | _ => simp_all
  | period hk _ =>
    cases hw with
    | period => simp [Value.same]
    | _ => simp_all
  | choice hk _ _ =>
    cases hw with
    | choice => simp [Value.same]
    | _ => simp_all
  | texts hk _ =>
    cases hw with
    | texts =>
      rw [Value.ofTexts, Value.ofTexts, Value.same, sameItems_map_text, Value.list.injEq,
        (List.map_injective_iff.mpr fun _ _ => Value.text.inj).eq_iff]
    | _ => simp_all

/-! ## The raw form of settled values -/

/-- Not a list with a mark in one of its texts. -/
def Separable : Value → Prop
  | .list items | .tuple items => ∀ s, Value.text s ∈ items → KeepsTogether s
  | _ => True

theorem separable_ofTexts {parts : List String} :
    Separable (Value.ofTexts parts) ↔ ∀ s ∈ parts, KeepsTogether s := by
  simp [Separable, Value.ofTexts]

theorem wholeNumber_decimal {n : Int} (h : Text.Writable n) :
    wholeNumber (.text (String.ofList (Text.decimal n))) = .ok n := by
  simp only [wholeNumber, String.toList_ofList, Text.readInteger?_decimal h]
  rfl

theorem map_text_writeInteger {n : Int} (h : Text.Writable n) :
    Value.text <$> Text.writeInteger n = .ok (.text (String.ofList (Text.decimal n))) := by
  rw [Text.writeInteger_of_writable h]
  rfl

theorem mapM_display_texts (parts : List String) : (parts.map Value.text).mapM Value.display = .ok parts := by
  rw [Except.mapM_eq_ok_iff, List.forall₂_map_left_iff, List.forall₂_same]
  exact fun _ _ => rfl

/-- The raw form of a settled value, and what it is converted to. -/
theorem Settled.exists_raw {field : Outgoing} {v : Value} (h : Settled field v) (hw : v.Writable) :
    ∃ s again, renderValue field.kind v = .ok (.text s) ∧ convert field (.text s) = .ok again
      ∧ (again = v ↔ Separable v) := by
  cases h with
  | @integer n hk hm =>
    refine ⟨String.ofList (Text.decimal n), .int n, ?_, ?_, by simp [Separable]⟩
    · rw [hk]
      exact map_text_writeInteger hw
    · exact (convert_integer_iff hk).mpr ⟨n, wholeNumber_decimal hw, hm, rfl⟩
  | boolean hk b =>
    refine ⟨if b then "true" else "false", .bool b, ?_, ?_, by simp [Separable]⟩
    · rw [hk]
      rfl
    · exact (convert_boolean_iff hk).mpr ⟨b, by cases b <;> rfl, rfl⟩
  | text hk s =>
    refine ⟨s, .text s, ?_, ?_, by simp [Separable]⟩
    · rw [hk]
      rfl
    · exact (convert_text_iff hk).mpr ⟨s, rfl, rfl⟩
  | @minutes n s hk hm hs =>
    have hn : Text.Writable n := Span.writable_of_dvd_micros (Span.micros_of_ofMinutes hs) (by decide)
    refine ⟨String.ofList (Text.decimal n), .span s, ?_, ?_, by simp [Separable]⟩
    · rw [hk]
      simp only [renderValue, Span.wholeMinutes_of_ofMinutes hs]
      exact map_text_writeInteger hn
    · exact (convert_minutes_iff hk).mpr ⟨n, wholeNumber_decimal hn, hm, s, hs, rfl⟩
  | @days n s hk hm hs =>
    have hn : Text.Writable n := Span.writable_of_dvd_micros (Span.micros_of_ofDays hs) (by decide)
    refine ⟨String.ofList (Text.decimal n), .span s, ?_, ?_, by simp [Separable]⟩
    · rw [hk]
      simp only [renderValue, Span.days_of_ofDays hs]
      exact map_text_writeInteger hn
    · exact (convert_days_iff hk).mpr ⟨n, wholeNumber_decimal hn, hm, s, hs, rfl⟩
  | @period p hk hp =>
    obtain ⟨s, hs, hread⟩ := Period.exists_write_read? hp
    refine ⟨s, .period p, ?_, ?_, by simp [Separable]⟩
    · rw [hk]
      simp only [renderValue, Value.display, hs]
      rfl
    · refine (convert_period_iff hk).mpr ⟨s, rfl, p, ?_, rfl⟩
      rw [Schema.period, hread]
      rfl
  | @choice s hk hc ht =>
    refine ⟨s, .text s, ?_, ?_, by simp [Separable]⟩
    · rw [hk]
      rfl
    · exact (convert_choice_iff hk).mpr ⟨s, rfl, by rw [ht]; exact hc, by rw [ht]⟩
  | @texts parts hk hp =>
    refine ⟨",".intercalate parts, Value.ofTexts (trimParts (splitList (",".intercalate parts))), ?_, ?_, ?_⟩
    · rw [hk]
      simp only [renderValue, Value.ofTexts, mapM_display_texts]
      rfl
    · exact (convert_texts_iff hk).mpr ⟨_, rfl, rfl⟩
    · rw [separable_ofTexts, ← trimParts_splitList_iff hp]
      constructor
      · intro h
        exact List.map_injective_iff.mpr (fun _ _ => Value.text.inj) (Value.list.inj h)
      · exact congrArg Value.ofTexts

/-! ## Shapes -/

/-- Whether the shape of a raw field is the one that raw values of the resolved field have. -/
def agrees (incoming : Incoming) (outgoing : Outgoing) : Bool :=
  match incoming.shape, outgoing.kind with
  | .integer, .integer | .integer, .minutes | .integer, .days => true
  | .boolean, .boolean => true
  | .text, .text | .text, .period => true
  | .textOrList, .texts => true
  | .choice, .choice => incoming.choices == outgoing.choices
  | _, _ => false

/-- A text that can be converted has the right shape. -/
theorem shapeProblem?_of_convert {incoming : Incoming} {outgoing : Outgoing} (ha : agrees incoming outgoing = true)
    {s : String} {v : Value} (h : convert outgoing (.text s) = .ok v) :
    shapeProblem? incoming (.text s) = .ok none := by
  unfold agrees at ha
  split at ha
  · next hs hk =>
    obtain ⟨n, hn, _⟩ := (convert_integer_iff hk).mp h
    simp only [shapeProblem?, hs, hn]
  · next hs hk =>
    obtain ⟨n, hn, _⟩ := (convert_minutes_iff hk).mp h
    simp only [shapeProblem?, hs, hn]
  · next hs hk =>
    obtain ⟨n, hn, _⟩ := (convert_days_iff hk).mp h
    simp only [shapeProblem?, hs, hn]
  · next hs hk => simp only [shapeProblem?, hs]
  · next hs hk => simp only [shapeProblem?, hs]
  · next hs hk => simp only [shapeProblem?, hs]
  · next hs hk => simp only [shapeProblem?, hs]
  · next hs hk =>
    obtain ⟨t, ht, hc, _⟩ := (convert_choice_iff hk).mp h
    cases ht
    simp only [shapeProblem?, hs, eq_of_beq ha, hc, Bool.or_true, ↓reduceIte]
  · cases ha

end Schema

end Stanza
