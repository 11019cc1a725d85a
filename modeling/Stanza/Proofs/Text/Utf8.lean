import Mathlib.Data.List.Infix
import Stanza.Text.Utf8

/-! # Encoded texts decoded

Decoding the bytes of a text gives the text, also block by block: if the end of a block cuts a character, the fault is
an unexpected end at the first byte of that character, so that its bytes are carried over and nothing is lost.
-/
namespace Stanza.Text

def encode (cs : List Char) : List UInt8 := cs.flatMap String.utf8EncodeChar

theorem encode_cons (c : Char) (cs : List Char) : encode (c :: cs) = String.utf8EncodeChar c ++ encode cs := rfl

theorem encode_append (cs ds : List Char) : encode (cs ++ ds) = encode cs ++ encode ds := List.flatMap_append

theorem toList_loop (bytes : ByteArray) (i : Nat) (front : List UInt8) :
    ByteArray.toList.loop bytes i front = front.reverse ++ bytes.data.toList.drop i := by
  fun_induction ByteArray.toList.loop bytes i front with
  | case1 i front h ih =>
    have hi : i < bytes.data.toList.length := h
    have hget : bytes.get! i = bytes.data.toList[i] := by simp [ByteArray.get!, h]
    rw [ih, List.drop_eq_getElem_cons hi, hget, List.reverse_cons, List.append_assoc, List.singleton_append]
  | case2 i front h => rw [List.drop_of_length_le (Nat.le_of_not_lt h), List.append_nil]

theorem toList_toUTF8 (s : String) : s.toUTF8.toList = encode s.toList := by
  obtain ⟨cs, rfl⟩ : ∃ cs, String.ofList cs = s := ⟨s.toList, String.ofList_toList⟩
  rw [ByteArray.toList, toList_loop, String.toUTF8_eq_toByteArray, String.toList_ofList]
  exact List.toList_data_toByteArray

/-! ## Characters -/

/-- Which bytes make a character of what has been read of it: how many bytes there are, the value so far and the range
of the next byte. -/
inductive Awaits (c : Char) : Nat → Nat → Nat → Nat → List UInt8 → Prop
  | last {value lo hi : Nat} {b : UInt8} (hb : lo ≤ b.toNat ∧ b.toNat ≤ hi)
    (hc : value * 64 + (b.toNat - 0x80) = c.toNat) : Awaits c 1 value lo hi [b]
  | more {missing value more lo hi : Nat} {b : UInt8} {tail : List UInt8} (hb : lo ≤ b.toNat ∧ b.toNat ≤ hi)
    (hv : value * 64 + (b.toNat - 0x80) = more) (h : Awaits c (missing + 1) more 0x80 0xbf tail) :
    Awaits c (missing + 2) value lo hi (b :: tail)

section

variable {c : Char} {missing value lo hi : Nat} {tail front : List UInt8}

theorem decodeUtf8From_more {b : UInt8} (hb : lo ≤ b.toNat ∧ b.toNat ≤ hi) {more : Nat}
    (hv : value * 64 + (b.toNat - 0x80) = more) (i start first seen : Nat) (rest : List UInt8) :
    decodeUtf8From i (some ⟨value, missing + 2, lo, hi, start, first, seen⟩) (b :: rest) =
      decodeUtf8From (i + 1) (some ⟨more, missing + 1, 0x80, 0xbf, start, first, seen + 1⟩) rest := by
  rw [decodeUtf8From, if_pos hb, if_neg (by simp), hv]
  rfl

theorem Awaits.decodeUtf8From (h : Awaits c missing value lo hi tail) (i start first seen : Nat) (rest : List UInt8) :
    decodeUtf8From i (some ⟨value, missing, lo, hi, start, first, seen⟩) (tail ++ rest) =
      (c :: (decodeUtf8From (i + tail.length) none rest).1, (decodeUtf8From (i + tail.length) none rest).2) := by
  induction h generalizing i seen with
  | last hb hc =>
    rw [List.singleton_append, Text.decodeUtf8From, if_pos hb, if_pos (Nat.le_refl _), hc, Char.ofNat_toNat]
    rfl
  | more hb hv _ ih =>
    rw [List.cons_append, decodeUtf8From_more hb hv, ih, List.length_cons, Nat.add_right_comm i 1, Nat.add_assoc i]

/-- A character that is cut off is a fault where it starts. -/
theorem Awaits.decodeUtf8From_cut (h : Awaits c missing value lo hi tail) (i start first seen : Nat)
    (hf : front <+: tail) (hne : front ≠ tail) :
    ∃ e, Text.decodeUtf8From i (some ⟨value, missing, lo, hi, start, first, seen⟩) front = ([], some e) ∧
      e.flaw = .unexpectedEnd ∧ e.position = start := by
  induction h generalizing i seen front with
  | last hb hc =>
    cases front with
    | nil => exact ⟨_, rfl, rfl, rfl⟩
    | cons d front =>
      obtain ⟨rfl, hnil⟩ := List.cons_prefix_cons.mp hf
      exact absurd (congrArg (List.cons d) (List.prefix_nil.mp hnil)) hne
  | more hb hv _ ih =>
    cases front with
    | nil => exact ⟨_, rfl, rfl, rfl⟩
    | cons d front =>
      obtain ⟨rfl, htail⟩ := List.cons_prefix_cons.mp hf
      rw [decodeUtf8From_more hb hv]
      exact ih (i + 1) (seen + 1) htail fun h => hne (congrArg (List.cons d) h)

end

theorem utf8Lead_two {k : Nat} (hlo : 2 ≤ k) (hhi : k < 32) : utf8Lead (k + 0xc0) = some (1, k, 0x80, 0xbf) := by
  rw [utf8Lead, if_pos (by omega), Nat.add_sub_cancel]

/-- Neither too long a form nor a surrogate goes on after its first byte. -/
theorem utf8Lead_three : ∀ k < 16,
    utf8Lead (k + 0xe0) = some (2, k, if k = 0 then 0xa0 else 0x80, if k = 13 then 0x9f else 0xbf) := by decide

theorem utf8Lead_four : ∀ k < 5,
    utf8Lead (k + 0xf0) = some (3, k, if k = 0 then 0x90 else 0x80, if k = 4 then 0x8f else 0xbf) := by decide

/-- The bytes of a character are one byte, or a first byte and what it awaits. -/
theorem utf8EncodeChar_cases (c : Char) : (c.toNat < 0x80 ∧ String.utf8EncodeChar c = [UInt8.ofNat c.toNat]) ∨
    ∃ lead tail missing value lo hi, String.utf8EncodeChar c = lead :: tail ∧ 0x80 ≤ lead.toNat ∧
      utf8Lead lead.toNat = some (missing, value, lo, hi) ∧ Awaits c missing value lo hi tail := by
  have hvalid : c.toNat < 0xd800 ∨ (0xdfff < c.toNat ∧ c.toNat < 0x110000) := c.valid
  have hbyte : ∀ n < 256, (UInt8.ofNat n).toNat = n := fun n hn => UInt8.toNat_ofNat_of_lt' hn
  have htail : ∀ n, (UInt8.ofNat (n % 0x40 + 0x80)).toNat = n % 0x40 + 0x80 := fun n => hbyte _ (by omega)
  have hencode := String.utf8EncodeChar.eq_def c
  simp only [show c.val.toNat = c.toNat from rfl] at hencode
  generalize hn : c.toNat = n at *
  by_cases h1 : n ≤ 0x7f
  · rw [if_pos h1] at hencode
    exact .inl ⟨by omega, hencode⟩
  rw [if_neg h1] at hencode
  right
  by_cases h2 : n ≤ 0x7ff
  · rw [if_pos h2, show n / 64 % 0x20 = n / 64 by omega] at hencode
    have hlead : (UInt8.ofNat (n / 64 + 0xc0)).toNat = n / 64 + 0xc0 := hbyte _ (by omega)
    refine ⟨_, _, _, _, _, _, hencode, by omega, (congrArg _ hlead).trans (utf8Lead_two (by omega) (by omega)), ?_⟩
    exact .last (by rw [htail]; omega) (by rw [htail]; omega)
  rw [if_neg h2] at hencode
  by_cases h3 : n ≤ 0xffff
  · rw [if_pos h3, show n / 4096 % 0x10 = n / 4096 by omega] at hencode
    have hlead : (UInt8.ofNat (n / 4096 + 0xe0)).toNat = n / 4096 + 0xe0 := hbyte _ (by omega)
    refine ⟨_, _, _, _, _, _, hencode, by omega, (congrArg _ hlead).trans (utf8Lead_three _ (by omega)), ?_⟩
    exact .more (by rw [htail]; constructor <;> split <;> omega) (by rw [htail]; omega : _ = n / 64)
      (.last (by rw [htail]; omega) (by rw [htail]; omega))
  · rw [if_neg h3, show n / 262144 % 0x08 = n / 262144 by omega] at hencode
    have hlead : (UInt8.ofNat (n / 262144 + 0xf0)).toNat = n / 262144 + 0xf0 := hbyte _ (by omega)
    refine ⟨_, _, _, _, _, _, hencode, by omega, (congrArg _ hlead).trans (utf8Lead_four _ (by omega)), ?_⟩
    exact .more (by rw [htail]; constructor <;> split <;> omega) (by rw [htail]; omega : _ = n / 4096)
      (.more (by rw [htail]; omega) (by rw [htail]; omega : _ = n / 64)
        (.last (by rw [htail]; omega) (by rw [htail]; omega)))

theorem decodeUtf8From_cons (i : Nat) (c : Char) (rest : List UInt8) :
    decodeUtf8From i none (String.utf8EncodeChar c ++ rest) =
      (c :: (decodeUtf8From (i + (String.utf8EncodeChar c).length) none rest).1,
        (decodeUtf8From (i + (String.utf8EncodeChar c).length) none rest).2) := by
  obtain ⟨hlt, hc⟩ | ⟨lead, tail, missing, value, lo, hi, hc, hlead, hl, ha⟩ := utf8EncodeChar_cases c
  · have hb : (UInt8.ofNat c.toNat).toNat = c.toNat := UInt8.toNat_ofNat_of_lt' (show _ < 256 by omega)
    rw [hc, List.singleton_append, decodeUtf8From, if_pos (by rw [hb]; exact hlt), hb, Char.ofNat_toNat]
    rfl
  · rw [hc, List.cons_append, decodeUtf8From, if_neg (by omega), hl]
    dsimp only
    rw [ha.decodeUtf8From, List.length_cons, Nat.add_right_comm i 1, Nat.add_assoc i]

theorem decodeUtf8From_encode (i : Nat) (cs : List Char) : decodeUtf8From i none (encode cs) = (cs, none) := by
  induction cs generalizing i with
  | nil => rfl
  | cons c cs ih => rw [encode_cons, decodeUtf8From_cons, ih]

/-- The beginning of a character is a fault where it starts. -/
theorem decodeUtf8From_cut (i : Nat) {c : Char} {front : List UInt8} (hf : front <+: String.utf8EncodeChar c)
    (hne : front ≠ String.utf8EncodeChar c) (hnil : front ≠ []) :
    ∃ e, decodeUtf8From i none front = ([], some e) ∧ e.flaw = .unexpectedEnd ∧ e.position = i := by
  cases front with
  | nil => exact absurd rfl hnil
  | cons b front =>
    obtain ⟨_, hc⟩ | ⟨lead, tail, missing, value, lo, hi, hc, hlead, hl, ha⟩ := utf8EncodeChar_cases c
    · rw [hc] at hf hne
      obtain ⟨rfl, htail⟩ := List.cons_prefix_cons.mp hf
      exact absurd (congrArg (List.cons _) (List.prefix_nil.mp htail)) hne
    · rw [hc] at hf hne
      obtain ⟨rfl, htail⟩ := List.cons_prefix_cons.mp hf
      rw [decodeUtf8From, if_neg (by omega), hl]
      exact ha.decodeUtf8From_cut (i + 1) i _ 1 htail fun h => hne (congrArg (List.cons _) h)

/-! ## Blocks -/

/-- The beginning of a text is decoded up to a character that is cut off, if there is one. -/
theorem decodeUtf8From_prefix {cs : List Char} {bytes : List UInt8} (h : bytes <+: encode cs) (i : Nat) :
    ∃ front back rest, cs = front ++ back ∧ bytes = encode front ++ rest ∧
      ((rest = [] ∧ decodeUtf8From i none bytes = (front, none)) ∨
        ∃ e, decodeUtf8From i none bytes = (front, some e) ∧ e.flaw = .unexpectedEnd ∧
          e.position = i + (encode front).length) := by
  induction cs generalizing bytes i with
  | nil =>
    obtain rfl := List.prefix_nil.mp h
    exact ⟨[], [], [], rfl, rfl, .inl ⟨rfl, rfl⟩⟩
  | cons c cs ih =>
    rw [encode_cons] at h
    by_cases hc : String.utf8EncodeChar c <+: bytes
    · obtain ⟨more, rfl⟩ := hc
      obtain ⟨front, back, rest, rfl, rfl, hcases⟩ := ih ((List.prefix_append_right_inj _).mp h)
        (i + (String.utf8EncodeChar c).length)
      refine ⟨c :: front, back, rest, rfl, by rw [encode_cons, List.append_assoc], ?_⟩
      rw [decodeUtf8From_cons]
      obtain ⟨hrest, hd⟩ | ⟨e, hd, hflaw, hposition⟩ := hcases
      · exact .inl ⟨hrest, by rw [hd]⟩
      · refine .inr ⟨e, by rw [hd], hflaw, ?_⟩
        rw [hposition, encode_cons, List.length_append, Nat.add_assoc]
    · by_cases hnil : bytes = []
      · exact ⟨[], c :: cs, [], rfl, hnil, .inl ⟨rfl, by rw [hnil]; rfl⟩⟩
      have hf := (List.prefix_or_prefix_of_prefix h (List.prefix_append _ _)).resolve_right hc
      have hne : bytes ≠ String.utf8EncodeChar c := fun heq => hc (heq ▸ List.prefix_rfl)
      obtain ⟨e, he, hflaw, hposition⟩ := decodeUtf8From_cut i hf hne hnil
      exact ⟨[], c :: cs, bytes, rfl, rfl, .inr ⟨e, he, hflaw, hposition⟩⟩

/-- What is carried over and what comes later are the rest of the text. -/
theorem decodeUtf8From_block {cs : List Char} {block later : List UInt8} (h : block ++ later = encode cs) :
    ∃ front back carry, cs = front ++ back ∧ carry ++ later = encode back ∧
      ((carry = [] ∧ decodeUtf8From 0 none block = (front, none)) ∨
        ∃ e, decodeUtf8From 0 none block = (front, some e) ∧ e.flaw = .unexpectedEnd ∧
          block.drop e.position = carry) := by
  obtain ⟨front, back, carry, rfl, rfl, hcases⟩ := decodeUtf8From_prefix ⟨later, h⟩ 0
  rw [encode_append, List.append_assoc, List.append_right_inj] at h
  refine ⟨front, back, carry, rfl, h, hcases.imp_right ?_⟩
  rintro ⟨e, hd, hflaw, hposition⟩
  refine ⟨e, hd, hflaw, ?_⟩
  rw [hposition, Nat.zero_add, List.drop_left]

/-- Wherever the blocks end, the text is decoded. -/
theorem decodeUtf8Blocks_encode {carry bytes : List UInt8} {cs : List Char} (h : carry ++ bytes = encode cs) :
    decodeUtf8Blocks carry bytes = (cs, none) := by
  have hsplit : ∀ (carry : List UInt8) (b : UInt8) (rest : List UInt8), (carry ++ b :: rest.take (utf8BlockSize - 1))
      ++ rest.drop (utf8BlockSize - 1) = carry ++ b :: rest := by
    intro carry b rest
    rw [List.append_assoc, List.cons_append, List.take_append_drop]
  fun_induction decodeUtf8Blocks carry bytes generalizing cs with
  | case1 carry =>
    rw [List.append_nil] at h
    rw [h, decodeUtf8From_encode]
  | case2 carry b rest =>
    rename_i chars hd more e he ih
    obtain ⟨front, back, _, rfl, hback, ⟨rfl, hfront⟩ | ⟨_, hfront, _⟩⟩ :=
      decodeUtf8From_block ((hsplit carry b rest).trans h)
    · obtain ⟨rfl, _⟩ := Prod.mk.inj (hd.symm.trans hfront)
      obtain ⟨rfl, rfl⟩ := Prod.mk.inj (he.symm.trans (ih hback))
      rfl
    · cases hd.symm.trans hfront
  | case3 carry b rest =>
    rename_i chars e hd _ more e' he ih
    obtain ⟨front, back, _, rfl, hback, ⟨_, hfront⟩ | ⟨d, hfront, _, rfl⟩⟩ :=
      decodeUtf8From_block ((hsplit carry b rest).trans h)
    · cases hd.symm.trans hfront
    · cases hd.symm.trans hfront
      obtain ⟨rfl, rfl⟩ := Prod.mk.inj (he.symm.trans (ih hback))
      rfl
  | case4 carry b rest =>
    rename_i chars e hd hflaw
    obtain ⟨front, back, _, rfl, _, ⟨_, hfront⟩ | ⟨d, hfront, hcut, _⟩⟩ :=
      decodeUtf8From_block ((hsplit carry b rest).trans h)
    · cases hd.symm.trans hfront
    · cases hd.symm.trans hfront
      exact absurd hcut hflaw

theorem decodeUtf8Stream_toUTF8 (s : String) : decodeUtf8Stream s.toUTF8.toList = (s.toList, none) :=
  decodeUtf8Blocks_encode (toList_toUTF8 s)

end Stanza.Text
