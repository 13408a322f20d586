import Mathlib.Data.List.Basic
import UiMarkup.Text.Offset
import UiMarkup.Text.Utf8

/-!
# Decoding what was encoded

The bytes of a text decode to the text and to no other, and bytes that end within a character do not
decode. So the beginnings of a row of bytes that decode are those that end between two characters.

* `encodeUtf8_ofList`, `length_utf8Bytes`: the bytes of a text.
* `MultiByte`: a character of several bytes, with the bits that each of them carries.
* `decodeUtf8_utf8Bytes`: the bytes of a text decode to it.
* `decodeUtf8_cutOff`: bytes that end within a character do not decode.
* `decodeUtf8_eq_ok_iff`: nothing else decodes to a text than its bytes.
-/

namespace UiMarkup.Text

/-! ## Bytes of texts -/

/-- The UTF-8 bytes of the characters. -/
def utf8Bytes (s : List Char) : List UInt8 :=
  s.flatMap String.utf8EncodeChar

@[simp] theorem utf8Bytes_nil : utf8Bytes [] = [] := rfl

theorem utf8Bytes_cons (c : Char) (s : List Char) :
    utf8Bytes (c :: s) = String.utf8EncodeChar c ++ utf8Bytes s := rfl

theorem utf8Bytes_append (s t : List Char) : utf8Bytes (s ++ t) = utf8Bytes s ++ utf8Bytes t :=
  List.flatMap_append

theorem length_utf8Bytes (s : List Char) : (utf8Bytes s).length = byteLength s := by
  induction s with
  | nil => rfl
  | cons c s ih => simp [utf8Bytes_cons, byteLength, ih]

theorem toList_loop_eq (bytes : ByteArray) (i : Nat) (read : List UInt8) :
    ByteArray.toList.loop bytes i read = read.reverse ++ bytes.data.toList.drop i := by
  fun_induction ByteArray.toList.loop bytes i read with
  | case1 i read hi ih =>
    have hlength : i < bytes.data.toList.length := by simpa using hi
    have hget : bytes.get! i = bytes.data.toList[i] := by
      rw [Array.getElem_toList]
      exact getElem!_pos bytes.data i hi
    rw [ih, hget, List.drop_eq_getElem_cons hlength]
    simp
  | case2 i read hi =>
    have hlength : bytes.data.toList.length ≤ i := by simpa using hi
    rw [List.drop_eq_nil_of_le hlength, List.append_nil]

/-- The encoding of a text consists of the bytes of its characters. -/
theorem encodeUtf8_ofList (s : List Char) : encodeUtf8 (String.ofList s) = utf8Bytes s := by
  rw [encodeUtf8, String.toUTF8_eq_toByteArray, String.toByteArray_ofList, List.utf8Encode,
    ByteArray.toList, toList_loop_eq, List.data_toByteArray]
  simp [utf8Bytes]

/-! ## Characters of several bytes -/

/-- The byte that continues a character with six bits. -/
def continuing (bits : Nat) : UInt8 :=
  UInt8.ofNat (bits + 128)

/-- The character has several bytes: `lead` starts it, and the bytes after it carry six bits each;
the first of these lies between `low` and `high`. -/
structure MultiByte (c : Char) (lead low high : UInt8) (bits : List Nat) : Prop where
  bytes : String.utf8EncodeChar c = lead :: bits.map continuing
  not_single : ¬ lead < 0x80
  starts : continuation? lead = some (bits.length, low, high)
  first : ∀ n ∈ bits.head?, low ≤ continuing n ∧ continuing n ≤ high
  lt : ∀ n ∈ bits, n < 64
  value : bits.foldl (fun value n => value * 64 + n) (startBits lead bits.length) = c.toNat

theorem toNat_continuing {n : Nat} (h : n < 64) : (continuing n).toNat = n + 128 := by
  simp [continuing]
  omega

/-- How many bytes a lead byte announces, and where the first of them lies. -/
theorem continuation?_two : ∀ n : Fin 256, 0xc2 ≤ n.val → n.val < 0xe0 →
    continuation? (UInt8.ofNat n) = some (1, 0x80, 0xbf) := by
  decide +kernel

theorem continuation?_three : ∀ n : Fin 256, 0xe0 ≤ n.val → n.val < 0xf0 →
    continuation? (UInt8.ofNat n) = some (2, if n.val = 0xe0 then 0xa0 else 0x80,
      if n.val = 0xed then 0x9f else 0xbf) := by
  decide +kernel

theorem continuation?_four : ∀ n : Fin 256, 0xf0 ≤ n.val → n.val < 0xf5 →
    continuation? (UInt8.ofNat n) = some (3, if n.val = 0xf0 then 0x90 else 0x80,
      if n.val = 0xf4 then 0x8f else 0xbf) := by
  decide +kernel

theorem le_continuing {b : UInt8} {n : Nat} (h : n < 64) :
    b ≤ continuing n ↔ b.toNat ≤ n + 128 := by
  rw [UInt8.le_iff_toNat_le, toNat_continuing h]

theorem continuing_le {b : UInt8} {n : Nat} (h : n < 64) :
    continuing n ≤ b ↔ n + 128 ≤ b.toNat := by
  rw [UInt8.le_iff_toNat_le, toNat_continuing h]

theorem continuing_mem_range {n : Nat} (h : n < 64) :
    0x80 ≤ continuing n ∧ continuing n ≤ 0xbf := by
  simp [le_continuing h, continuing_le h]
  omega

theorem multiByte_two {c : Char} (hlow : 0x80 ≤ c.toNat) (hhigh : c.toNat < 0x800) :
    MultiByte c (UInt8.ofNat (c.toNat / 64 % 32 + 192)) 0x80 0xbf [c.toNat % 64] where
  bytes := by
    have h1 : ¬ c.toNat ≤ 127 := by omega
    have h2 : c.toNat ≤ 2047 := by omega
    simp only [String.utf8EncodeChar, Char.toNat_val, h1, h2, if_true, if_false]
    rfl
  not_single := by
    rw [UInt8.lt_iff_toNat_lt]
    simp
    omega
  starts := continuation?_two ⟨c.toNat / 64 % 32 + 192, by omega⟩ (by simp; omega) (by simp; omega)
  first := by
    have h : c.toNat % 64 < 64 := by omega
    simp [le_continuing h, continuing_le h]
    omega
  lt := by simp; omega
  value := by
    simp [startBits]
    omega

/-- A character is no surrogate. -/
theorem toNat_valid (c : Char) : c.toNat < 0xd800 ∨ 0xdfff < c.toNat ∧ c.toNat < 0x110000 := by
  have := c.valid
  simpa [UInt32.isValidChar, Nat.isValidChar] using this

theorem multiByte_three {c : Char} (hlow : 0x800 ≤ c.toNat) (hhigh : c.toNat < 0x10000) :
    MultiByte c (UInt8.ofNat (c.toNat / 4096 % 16 + 224))
      (if c.toNat / 4096 % 16 + 224 = 0xe0 then 0xa0 else 0x80)
      (if c.toNat / 4096 % 16 + 224 = 0xed then 0x9f else 0xbf)
      [c.toNat / 64 % 64, c.toNat % 64] where
  bytes := by
    have h1 : ¬ c.toNat ≤ 127 := by omega
    have h2 : ¬ c.toNat ≤ 2047 := by omega
    have h3 : c.toNat ≤ 65535 := by omega
    simp only [String.utf8EncodeChar, Char.toNat_val, h1, h2, h3, if_true, if_false]
    rfl
  not_single := by
    rw [UInt8.lt_iff_toNat_lt]
    simp
    omega
  starts := continuation?_three ⟨c.toNat / 4096 % 16 + 224, by omega⟩ (by simp) (by simp; omega)
  first := by
    have h : c.toNat / 64 % 64 < 64 := by omega
    have hvalid := toNat_valid c
    simp only [List.head?_cons, Option.mem_def, Option.some.injEq, forall_eq', le_continuing h,
      continuing_le h]
    split <;> split <;> simp <;> omega
  lt := by simp; omega
  value := by
    simp [startBits]
    omega

theorem multiByte_four {c : Char} (hlow : 0x10000 ≤ c.toNat) :
    MultiByte c (UInt8.ofNat (c.toNat / 262144 % 8 + 240))
      (if c.toNat / 262144 % 8 + 240 = 0xf0 then 0x90 else 0x80)
      (if c.toNat / 262144 % 8 + 240 = 0xf4 then 0x8f else 0xbf)
      [c.toNat / 4096 % 64, c.toNat / 64 % 64, c.toNat % 64] where
  bytes := by
    have h1 : ¬ c.toNat ≤ 127 := by omega
    have h2 : ¬ c.toNat ≤ 2047 := by omega
    have h3 : ¬ c.toNat ≤ 65535 := by omega
    simp only [String.utf8EncodeChar, Char.toNat_val, h1, h2, h3, if_false]
    rfl
  not_single := by
    rw [UInt8.lt_iff_toNat_lt]
    simp
    omega
  starts := by
    have hvalid := toNat_valid c
    exact continuation?_four ⟨c.toNat / 262144 % 8 + 240, by omega⟩ (by simp) (by simp; omega)
  first := by
    have h : c.toNat / 4096 % 64 < 64 := by omega
    have hvalid := toNat_valid c
    simp only [List.head?_cons, Option.mem_def, Option.some.injEq, forall_eq', le_continuing h,
      continuing_le h]
    split <;> split <;> simp <;> omega
  lt := by simp; omega
  value := by
    have hvalid := toNat_valid c
    simp [startBits]
    omega

theorem exists_multiByte {c : Char} (h : 0x80 ≤ c.toNat) :
    ∃ lead low high bits, MultiByte c lead low high bits := by
  by_cases h2 : c.toNat < 0x800
  · exact ⟨_, _, _, _, multiByte_two h h2⟩
  · by_cases h3 : c.toNat < 0x10000
    · exact ⟨_, _, _, _, multiByte_three (by omega) h3⟩
    · exact ⟨_, _, _, _, multiByte_four (by omega)⟩

/-! ## Decoding -/

/-- The bytes that continue a character give its bits. -/
theorem decodeRest_map_continuing {position : Nat} {lead : UInt8} {bits : List Nat}
    (hlt : ∀ n ∈ bits, n < 64) (value taken : Nat) {low high : UInt8}
    (hfirst : ∀ n ∈ bits.head?, low ≤ continuing n ∧ continuing n ≤ high) (bytes : List UInt8) :
    decodeRest position lead value taken bits.length low high (bits.map continuing ++ bytes) =
      .ok (Char.ofNat (bits.foldl (fun value n => value * 64 + n) value), bytes) := by
  induction bits generalizing value taken low high with
  | nil => simp [decodeRest]
  | cons n bits ih =>
    have hn := hlt n List.mem_cons_self
    have hbits : (continuing n).toNat % 64 = n := by
      rw [toNat_continuing hn]
      omega
    have hrest := fun m hm => hlt m (List.mem_cons_of_mem n hm)
    have hrange : ∀ m ∈ bits.head?, 0x80 ≤ continuing m ∧ continuing m ≤ 0xbf :=
      fun m hm => continuing_mem_range (hrest m (List.mem_of_mem_head? hm))
    simp [decodeRest, hfirst n (by simp), hbits, ih hrest _ _ hrange]

/-- Too few bytes that continue a character give none. -/
theorem decodeRest_take_map_continuing {position : Nat} {lead : UInt8} {bits : List Nat}
    (hlt : ∀ n ∈ bits, n < 64) (value taken : Nat) {low high : UInt8}
    (hfirst : ∀ n ∈ bits.head?, low ≤ continuing n ∧ continuing n ≤ high) {count : Nat}
    (hcount : count < bits.length) :
    decodeRest position lead value taken bits.length low high ((bits.map continuing).take count) =
      .error ⟨position, lead, taken + count, .unexpectedEnd⟩ := by
  induction bits generalizing value taken low high count with
  | nil => cases hcount
  | cons n bits ih =>
    cases count with
    | zero => simp [decodeRest]
    | succ count =>
      have hrest := fun m hm => hlt m (List.mem_cons_of_mem n hm)
      have hrange : ∀ m ∈ bits.head?, 0x80 ≤ continuing m ∧ continuing m ≤ 0xbf :=
        fun m hm => continuing_mem_range (hrest m (List.mem_of_mem_head? hm))
      have hcount : count < bits.length := Nat.lt_of_succ_lt_succ hcount
      simp [decodeRest, hfirst n (by simp), ih hrest _ _ hrange hcount]
      omega

theorem utf8EncodeChar_of_lt {c : Char} (h : c.toNat < 0x80) :
    String.utf8EncodeChar c = [UInt8.ofNat c.toNat] := by
  simp only [String.utf8EncodeChar, Char.toNat_val, Nat.le_of_lt_succ h, if_true]

/-- The bytes of a character decode to it. -/
theorem decodeAt_utf8EncodeChar (c : Char) (position fuel : Nat) (bytes : List UInt8) :
    decodeAt position (fuel + 1) (String.utf8EncodeChar c ++ bytes) =
      (decodeAt (position + c.utf8Size) fuel bytes).map (c :: ·) := by
  rw [← String.length_utf8EncodeChar]
  by_cases h : c.toNat < 0x80
  · have hbyte : (UInt8.ofNat c.toNat).toNat = c.toNat := by
      simp
      omega
    have hlt : UInt8.ofNat c.toNat < 0x80 := by
      rw [UInt8.lt_iff_toNat_lt, hbyte]
      exact h
    simp [utf8EncodeChar_of_lt h, decodeAt, hlt, hbyte]
  · obtain ⟨lead, low, high, bits, hc⟩ := exists_multiByte (Nat.le_of_not_lt h)
    simp [hc.bytes, decodeAt, hc.not_single, hc.starts, hc.value,
      decodeRest_map_continuing hc.lt _ _ hc.first, Nat.add_assoc]

/-- Bytes that end within a character do not decode. -/
theorem decodeAt_take_utf8EncodeChar (c : Char) (position fuel : Nat) {count : Nat}
    (hpos : 0 < count) (hcount : count < c.utf8Size) :
    ∃ e, decodeAt position (fuel + 1) ((String.utf8EncodeChar c).take count) = .error e := by
  rw [← String.length_utf8EncodeChar] at hcount
  obtain ⟨count, rfl⟩ := Nat.exists_eq_add_of_le' hpos
  by_cases h : c.toNat < 0x80
  · simp [utf8EncodeChar_of_lt h] at hcount
  · obtain ⟨lead, low, high, bits, hc⟩ := exists_multiByte (Nat.le_of_not_lt h)
    rw [hc.bytes] at hcount
    have hcount : count < bits.length := by simpa using hcount
    simp [hc.bytes, decodeAt, hc.not_single, hc.starts,
      decodeRest_take_map_continuing hc.lt _ _ hc.first hcount]

theorem decodeAt_utf8Bytes (s : List Char) (position fuel : Nat) (bytes : List UInt8) :
    decodeAt position (s.length + fuel) (utf8Bytes s ++ bytes) =
      (decodeAt (position + byteLength s) fuel bytes).map (s ++ ·) := by
  induction s generalizing position with
  | nil => cases h : decodeAt position fuel bytes <;> simp [byteLength, Except.map, h]
  | cons c s ih =>
    rw [utf8Bytes_cons, List.append_assoc, List.length_cons, Nat.add_right_comm,
      decodeAt_utf8EncodeChar, ih, byteLength, Nat.add_assoc]
    cases decodeAt (position + (c.utf8Size + byteLength s)) fuel bytes <;> rfl

theorem length_le_byteLength (s : List Char) : s.length ≤ byteLength s := by
  induction s with
  | nil => exact Nat.le_refl _
  | cons c s ih =>
    have := c.utf8Size_pos
    simp only [List.length_cons, byteLength]
    omega

/-- The bytes of a text decode to it. -/
theorem decodeUtf8_utf8Bytes (s : List Char) : decodeUtf8 (utf8Bytes s) = .ok s := by
  obtain ⟨fuel, hfuel⟩ := Nat.exists_eq_add_of_le (length_le_byteLength s)
  have h := decodeAt_utf8Bytes s 0 fuel []
  rw [List.append_nil, ← hfuel] at h
  rw [decodeUtf8, length_utf8Bytes, h]
  cases fuel <;> simp [decodeAt, Except.map]

/-- Bytes that end within a character do not decode. -/
theorem decodeUtf8_cutOff (s : List Char) (c : Char) {count : Nat} (hpos : 0 < count)
    (hcount : count < c.utf8Size) :
    ∃ e, decodeUtf8 (utf8Bytes s ++ (String.utf8EncodeChar c).take count) = .error e := by
  have hlength : (utf8Bytes s ++ (String.utf8EncodeChar c).take count).length =
      s.length + (byteLength s - s.length + (count - 1) + 1) := by
    have := length_le_byteLength s
    simp [length_utf8Bytes]
    omega
  obtain ⟨e, he⟩ := decodeAt_take_utf8EncodeChar c (0 + byteLength s)
    (byteLength s - s.length + (count - 1)) hpos hcount
  refine ⟨e, ?_⟩
  rw [decodeUtf8, hlength, decodeAt_utf8Bytes, he]
  rfl

/-! ## Only what was encoded decodes -/

theorem continuation?_none : ∀ n : Fin 256, n.val < 0xc2 ∨ 0xf5 ≤ n.val →
    continuation? (UInt8.ofNat n) = none := by
  decide +kernel

/-- What a lead byte says about the bytes after it. -/
theorem lead_of_continuation? {b low high : UInt8} {following : Nat}
    (h : continuation? b = some (following, low, high)) :
    (following = 1 ∧ 0xc2 ≤ b.toNat ∧ b.toNat < 0xe0 ∧ low = 0x80 ∧ high = 0xbf) ∨
    (following = 2 ∧ 0xe0 ≤ b.toNat ∧ b.toNat < 0xf0 ∧
      low = (if b.toNat = 0xe0 then 0xa0 else 0x80) ∧
      high = (if b.toNat = 0xed then 0x9f else 0xbf)) ∨
    (following = 3 ∧ 0xf0 ≤ b.toNat ∧ b.toNat < 0xf5 ∧
      low = (if b.toNat = 0xf0 then 0x90 else 0x80) ∧
      high = (if b.toNat = 0xf4 then 0x8f else 0xbf)) := by
  have hbyte : UInt8.ofNat b.toNat = b := UInt8.ofNat_toNat
  let n : Fin 256 := ⟨b.toNat, b.toNat_lt⟩
  by_cases hnone : b.toNat < 0xc2 ∨ 0xf5 ≤ b.toNat
  · have hn := continuation?_none n hnone
    rw [hbyte, h] at hn
    cases hn
  by_cases htwo : b.toNat < 0xe0
  · have hn := continuation?_two n (show 0xc2 ≤ b.toNat by omega) htwo
    rw [hbyte, h] at hn
    cases hn
    exact .inl ⟨rfl, by omega, htwo, rfl, rfl⟩
  by_cases hthree : b.toNat < 0xf0
  · have hn := continuation?_three n (show 0xe0 ≤ b.toNat by omega) hthree
    rw [hbyte, h] at hn
    cases hn
    exact .inr (.inl ⟨rfl, by omega, hthree, rfl, rfl⟩)
  · have hn := continuation?_four n (show 0xf0 ≤ b.toNat by omega) (show b.toNat < 0xf5 by omega)
    rw [hbyte, h] at hn
    cases hn
    exact .inr (.inr ⟨rfl, by omega, by omega, rfl, rfl⟩)

/-- The bytes that were read after a lead byte carry six bits each. -/
theorem bits_of_decodeRest {position : Nat} {lead : UInt8} {value taken missing : Nat}
    {low high : UInt8} {bytes rest : List UInt8} {c : Char} (hlow : 0x80 ≤ low) (hhigh : high ≤ 0xbf)
    (h : decodeRest position lead value taken missing low high bytes = .ok (c, rest)) :
    ∃ bits : List Nat, bits.length = missing ∧ (∀ n ∈ bits, n < 64) ∧
      bytes = bits.map continuing ++ rest ∧
      (∀ n ∈ bits.head?, low ≤ continuing n ∧ continuing n ≤ high) ∧
      c = Char.ofNat (bits.foldl (fun value n => value * 64 + n) value) := by
  induction missing generalizing value taken low high bytes with
  | zero =>
    rw [decodeRest] at h
    cases h
    exact ⟨[], rfl, by simp, rfl, by simp, rfl⟩
  | succ missing ih =>
    cases bytes with
    | nil => simp [decodeRest] at h
    | cons b bytes =>
      rw [decodeRest] at h
      split at h
      · next hrange =>
        simp only [Bool.and_eq_true, decide_eq_true_eq] at hrange
        obtain ⟨bits, hlength, hlt, rfl, -, rfl⟩ := ih (by decide) (by decide) h
        have hb : continuing (b.toNat % 64) = b := by
          have h₁ := UInt8.le_iff_toNat_le.mp (UInt8.le_trans hlow hrange.1)
          have h₂ := UInt8.le_iff_toNat_le.mp (UInt8.le_trans hrange.2 hhigh)
          rw [← UInt8.toNat_inj, toNat_continuing (Nat.mod_lt _ (by decide))]
          simp at h₁ h₂
          omega
        refine ⟨b.toNat % 64 :: bits, by simp [hlength], ?_, by simp [hb], by simpa [hb], rfl⟩
        exact List.forall_mem_cons.mpr ⟨Nat.mod_lt _ (by decide), hlt⟩
      · cases h

theorem toNat_ofNat_of_isValidChar {n : Nat} (h : n.isValidChar) : (Char.ofNat n).toNat = n := by
  rw [Char.ofNat, dif_pos h]
  rfl

theorem encode_two {b : UInt8} {n : Nat} (hle : 0xc2 ≤ b.toNat) (hge : b.toNat < 0xe0)
    (hn : n < 64) : String.utf8EncodeChar (Char.ofNat (startBits b 1 * 64 + n)) =
      [b, continuing n] := by
  have hvalue : startBits b 1 = b.toNat - 0xc0 := by
    simp [startBits]
    omega
  have hc := toNat_ofNat_of_isValidChar (n := startBits b 1 * 64 + n) (.inl (by omega))
  rw [(multiByte_two (by omega) (by omega)).bytes, hc]
  have hlead : (startBits b 1 * 64 + n) / 64 % 32 + 192 = b.toNat := by omega
  have hlast : (startBits b 1 * 64 + n) % 64 = n := by omega
  rw [hlead, hlast, UInt8.ofNat_toNat]
  rfl

theorem encode_three {b : UInt8} {n m : Nat} (hle : 0xe0 ≤ b.toNat) (hge : b.toNat < 0xf0)
    (hn : n < 64) (hm : m < 64) (hlow : b.toNat = 0xe0 → 0x20 ≤ n)
    (hhigh : b.toNat = 0xed → n < 0x20) :
    String.utf8EncodeChar (Char.ofNat ((startBits b 2 * 64 + n) * 64 + m)) =
      [b, continuing n, continuing m] := by
  have hvalue : startBits b 2 = b.toNat - 0xe0 := by
    simp [startBits]
    omega
  have hvalid : ((startBits b 2 * 64 + n) * 64 + m).isValidChar := by
    unfold Nat.isValidChar
    omega
  have hc := toNat_ofNat_of_isValidChar hvalid
  rw [(multiByte_three (by omega) (by omega)).bytes, hc]
  have hlead : ((startBits b 2 * 64 + n) * 64 + m) / 4096 % 16 + 224 = b.toNat := by omega
  have hfirst : ((startBits b 2 * 64 + n) * 64 + m) / 64 % 64 = n := by omega
  have hlast : ((startBits b 2 * 64 + n) * 64 + m) % 64 = m := by omega
  rw [hlead, hfirst, hlast, UInt8.ofNat_toNat]
  rfl

theorem encode_four {b : UInt8} {n m k : Nat} (hle : 0xf0 ≤ b.toNat) (hge : b.toNat < 0xf5)
    (hn : n < 64) (hm : m < 64) (hk : k < 64) (hlow : b.toNat = 0xf0 → 0x10 ≤ n)
    (hhigh : b.toNat = 0xf4 → n < 0x10) :
    String.utf8EncodeChar (Char.ofNat (((startBits b 3 * 64 + n) * 64 + m) * 64 + k)) =
      [b, continuing n, continuing m, continuing k] := by
  have hvalue : startBits b 3 = b.toNat - 0xf0 := by
    simp [startBits]
    omega
  have hvalid : (((startBits b 3 * 64 + n) * 64 + m) * 64 + k).isValidChar := by
    unfold Nat.isValidChar
    omega
  have hc := toNat_ofNat_of_isValidChar hvalid
  rw [(multiByte_four (by omega)).bytes, hc]
  have hlead : (((startBits b 3 * 64 + n) * 64 + m) * 64 + k) / 262144 % 8 + 240 = b.toNat := by
    omega
  have hfirst : (((startBits b 3 * 64 + n) * 64 + m) * 64 + k) / 4096 % 64 = n := by omega
  have hsecond : (((startBits b 3 * 64 + n) * 64 + m) * 64 + k) / 64 % 64 = m := by omega
  have hlast : (((startBits b 3 * 64 + n) * 64 + m) * 64 + k) % 64 = k := by omega
  rw [hlead, hfirst, hsecond, hlast, UInt8.ofNat_toNat]
  rfl

/-- A character of several bytes is encoded by the bytes that decode to it. -/
theorem encode_of_bits {b low high : UInt8} {bits : List Nat}
    (h : continuation? b = some (bits.length, low, high)) (hlt : ∀ n ∈ bits, n < 64)
    (hfirst : ∀ n ∈ bits.head?, low ≤ continuing n ∧ continuing n ≤ high) :
    String.utf8EncodeChar
        (Char.ofNat (bits.foldl (fun value n => value * 64 + n) (startBits b bits.length))) =
      b :: bits.map continuing := by
  rcases lead_of_continuation? h with ⟨hlength, hle, hge, -, -⟩ | ⟨hlength, hle, hge, rfl, rfl⟩ |
    ⟨hlength, hle, hge, rfl, rfl⟩
  · obtain ⟨n, rfl⟩ := List.length_eq_one_iff.mp hlength
    exact encode_two hle hge (hlt n (by simp))
  · obtain ⟨n, m, rfl⟩ := List.length_eq_two.mp hlength
    have hn := hlt n (by simp)
    have hrange := hfirst n rfl
    rw [le_continuing hn, continuing_le hn] at hrange
    refine encode_three hle hge hn (hlt m (by simp)) (fun hb => ?_) fun hb => ?_
    · rw [if_pos hb] at hrange
      have := hrange.1
      simp at this
      omega
    · rw [if_pos hb] at hrange
      have := hrange.2
      simp at this
      omega
  · obtain ⟨n, m, k, rfl⟩ := List.length_eq_three.mp hlength
    have hn := hlt n (by simp)
    have hrange := hfirst n rfl
    rw [le_continuing hn, continuing_le hn] at hrange
    refine encode_four hle hge hn (hlt m (by simp)) (hlt k (by simp)) (fun hb => ?_) fun hb => ?_
    · rw [if_pos hb] at hrange
      have := hrange.1
      simp at this
      omega
    · rw [if_pos hb] at hrange
      have := hrange.2
      simp at this
      omega

/-- What decodes to a text are its bytes. -/
theorem utf8Bytes_of_decodeAt {position fuel : Nat} {bytes : List UInt8} {s : List Char}
    (hfuel : bytes.length ≤ fuel) (h : decodeAt position fuel bytes = .ok s) :
    bytes = utf8Bytes s := by
  induction fuel generalizing position bytes s with
  | zero =>
    cases h
    exact List.eq_nil_of_length_eq_zero (Nat.le_zero.mp hfuel)
  | succ fuel ih =>
    cases bytes with
    | nil =>
      cases h
      rfl
    | cons b bytes =>
      rw [decodeAt] at h
      split at h
      · next hsingle =>
        have hb : b.toNat < 0x80 := UInt8.lt_iff_toNat_lt.mp hsingle
        cases hrest : decodeAt (position + 1) fuel bytes with
        | error e => rw [hrest] at h; cases h
        | ok s' =>
          rw [hrest] at h
          cases h
          have hc := toNat_ofNat_of_isValidChar (n := b.toNat) (.inl (by omega))
          rw [utf8Bytes_cons, utf8EncodeChar_of_lt (by omega), hc, UInt8.ofNat_toNat,
            ← ih (Nat.le_of_succ_le_succ hfuel) hrest]
          rfl
      · split at h
        · cases h
        next following low high hlead =>
        split at h
        · cases h
        next c rest hchar =>
        have hbounds : 0x80 ≤ low ∧ high ≤ 0xbf := by
          rcases lead_of_continuation? hlead with ⟨-, -, -, rfl, rfl⟩ | ⟨-, -, -, rfl, rfl⟩ |
            ⟨-, -, -, rfl, rfl⟩
          · decide
          · split <;> split <;> decide
          · split <;> split <;> decide
        obtain ⟨bits, rfl, hlt, rfl, hfirst, rfl⟩ := bits_of_decodeRest hbounds.1 hbounds.2 hchar
        cases hrest : decodeAt (position + bits.length + 1) fuel rest with
        | error e => rw [hrest] at h; cases h
        | ok s' =>
          rw [hrest] at h
          cases h
          simp only [List.length_cons, List.length_append, List.length_map] at hfuel
          rw [utf8Bytes_cons, encode_of_bits hlead hlt hfirst, ← ih (by omega) hrest]
          rfl

/-- Bytes decode to a text exactly if they are its bytes. -/
theorem decodeUtf8_eq_ok_iff {bytes : List UInt8} {s : List Char} :
    decodeUtf8 bytes = .ok s ↔ bytes = utf8Bytes s := by
  constructor
  · exact utf8Bytes_of_decodeAt (Nat.le_refl _)
  · rintro rfl
    exact decodeUtf8_utf8Bytes s

end UiMarkup.Text
