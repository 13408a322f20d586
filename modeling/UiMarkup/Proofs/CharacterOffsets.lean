import Mathlib.Order.Bounds.Basic
import UiMarkup.Proofs.Spans
import UiMarkup.Proofs.Utf8

/-!
# Character offsets of byte offsets

A byte offset is converted to the number of characters that lie wholly before it. Where it stands at
the start of a character, the conversion loses nothing, and the characters of a node are those that
its bytes encode. A conversion that decodes shorter and shorter beginnings of the bytes, until one
decodes, comes to the same, and needs no more than four of them.

* `exists_split`: a byte offset before the end of a text stands at or within a character.
* `isGreatest_charOffset`: the conversion as a maximum.
* `decodes_at`: the beginnings of the bytes that decode.
* `slice_of_boundaries`: the text between two starts of characters.
* `offsets_convert_exactly`: the main statement.
-/

namespace UiMarkup

open TypeScript (Document Tree)

namespace Text

/-! ## Offsets within a character -/

/-- A byte offset before the end of a text stands at or within a character. -/
theorem exists_split {s : List Char} {bytes : Nat} (h : bytes < byteLength s) :
    ∃ head c rest r, s = head ++ c :: rest ∧ bytes = byteLength head + r ∧ r < c.utf8Size := by
  induction s generalizing bytes with
  | nil => exact absurd h (Nat.not_lt_zero _)
  | cons c s ih =>
    by_cases hc : bytes < c.utf8Size
    · exact ⟨[], c, s, bytes, rfl, by simp [byteLength], hc⟩
    · rw [byteLength] at h
      have hlater : bytes - c.utf8Size < byteLength s := by omega
      obtain ⟨head, d, rest, r, rfl, hbytes, hr⟩ := ih hlater
      exact ⟨c :: head, d, rest, r, rfl, by rw [byteLength]; omega, hr⟩

theorem charsWithin_split (head : List Char) {c : Char} (rest : List Char) {r : Nat}
    (h : r < c.utf8Size) : charsWithin (byteLength head + r) (head ++ c :: rest) = head.length := by
  rw [charsWithin_append, charsWithin, if_neg (Nat.not_le_of_lt h), Nat.add_zero]

theorem charsWithin_of_byteLength_le {s : List Char} {bytes : Nat} (h : byteLength s ≤ bytes) :
    charsWithin bytes s = s.length := by
  obtain ⟨more, rfl⟩ := Nat.exists_eq_add_of_le h
  simpa [charsWithin] using charsWithin_append s [] more

theorem byteLength_take_mono (s : List Char) {j k : Nat} (h : j ≤ k) :
    byteLength (s.take j) ≤ byteLength (s.take k) := by
  obtain ⟨more, rfl⟩ := Nat.exists_eq_add_of_le h
  rw [List.take_add, byteLength_append]
  exact Nat.le_add_right _ _

/-- Characters that lie within the bytes are counted. -/
theorem le_charsWithin {s : List Char} {k bytes : Nat} (hk : k ≤ s.length)
    (h : byteLength (s.take k) ≤ bytes) : k ≤ charsWithin bytes s := by
  calc k = (s.take k).length := (List.length_take_of_le hk).symm
    _ ≤ (s.take k).length + charsWithin (bytes - byteLength (s.take k)) (s.drop k) :=
      Nat.le_add_right _ _
    _ = charsWithin bytes s := by
      rw [← charsWithin_append, List.take_append_drop]
      congr 1
      omega

theorem charsWithin_le_length (bytes : Nat) (s : List Char) : charsWithin bytes s ≤ s.length := by
  by_cases h : bytes < byteLength s
  · obtain ⟨head, c, rest, r, rfl, rfl, hr⟩ := exists_split h
    rw [charsWithin_split head rest hr, List.length_append]
    exact Nat.le_add_right _ _
  · exact Nat.le_of_eq (charsWithin_of_byteLength_le (Nat.le_of_not_lt h))

/-- The conversion gives the largest number of characters that the bytes hold. -/
theorem isGreatest_charOffset (s : List Char) (bytes : Int) :
    IsGreatest {k | k ≤ s.length ∧ (byteLength (s.take k) : Int) ≤ max bytes 0}
      (charOffset s bytes) := by
  have hmax : max bytes 0 = bytes.toNat := by omega
  rw [hmax]
  constructor
  · exact ⟨charsWithin_le_length _ _, Int.ofNat_le.mpr (byteLength_take_charsWithin_le _ _)⟩
  · rintro k ⟨hk, hbytes⟩
    exact le_charsWithin hk (Int.ofNat_le.mp hbytes)

theorem charOffset_mono {a b : Int} (h : a ≤ b) (s : List Char) :
    charOffset s a ≤ charOffset s b :=
  charsWithin_mono (by omega) s

/-! ## Beginnings that decode -/

/-- The beginning of the bytes with the given length decodes, and those with up to `steps` bytes
more do not. -/
structure DecodesAt (bytes : List UInt8) (length steps : Nat) (decoded : List Char) : Prop where
  decodes : decodeUtf8 (bytes.take length) = .ok decoded
  fails : ∀ more, 0 < more → more ≤ steps → ∃ e, decodeUtf8 (bytes.take (length + more)) = .error e

theorem take_utf8Bytes_split (head : List Char) (c : Char) (rest : List Char) {r : Nat}
    (h : r ≤ c.utf8Size) : (utf8Bytes (head ++ c :: rest)).take (byteLength head + r) =
      utf8Bytes head ++ (String.utf8EncodeChar c).take r := by
  rw [utf8Bytes_append, utf8Bytes_cons, ← length_utf8Bytes, List.take_length_add_append]
  rw [List.take_append_of_le_length (by rwa [String.length_utf8EncodeChar])]

/-- Of the beginnings of the bytes with the given length and up to three bytes less, the first that
decodes gives the characters before the offset. -/
theorem exists_decodesAt (s : List Char) (bytes : Nat) :
    ∃ length steps, bytes = length + steps ∧ steps ≤ 3 ∧
      DecodesAt (utf8Bytes s) length steps (s.take (charOffset s bytes)) := by
  by_cases h : bytes < byteLength s
  · obtain ⟨head, c, rest, r, rfl, rfl, hr⟩ := exists_split h
    have hoffset : charOffset (head ++ c :: rest) (byteLength head + r : Nat) = head.length :=
      charsWithin_split head rest hr
    have hfour := c.utf8Size_le_four
    refine ⟨byteLength head, r, rfl, by omega, ?_, fun more hpos hmore => ?_⟩
    · have htake := take_utf8Bytes_split head c rest (Nat.zero_le _)
      rw [hoffset, List.take_left, ← Nat.add_zero (byteLength head), htake, List.take_zero,
        List.append_nil, decodeUtf8_utf8Bytes]
    · rw [take_utf8Bytes_split head c rest (by omega)]
      exact decodeUtf8_cutOff head c hpos (by omega)
  · refine ⟨bytes, 0, rfl, by omega, ?_, fun more hpos hmore => absurd hpos (by omega)⟩
    have hoffset : charOffset s bytes = s.length :=
      charsWithin_of_byteLength_le (Nat.le_of_not_lt h)
    rw [hoffset, List.take_length, List.take_of_length_le, decodeUtf8_utf8Bytes]
    rw [length_utf8Bytes]
    omega

/-- Tries beginnings of the bytes, the first with the given length and each later one a byte
shorter; gives the number of characters in the first that decodes. -/
def probe (bytes : List UInt8) (length : Nat) : (tries : Nat) → Nat
  | 0 => 0
  | tries + 1 =>
    match decodeUtf8 (bytes.take length) with
    | .ok decoded => decoded.length
    | .error _ => probe bytes (length - 1) tries

theorem DecodesAt.probe_eq {bytes : List UInt8} {length steps : Nat} {decoded : List Char}
    (h : DecodesAt bytes length steps decoded) (more : Nat) :
    probe bytes (length + steps) (steps + 1 + more) = decoded.length := by
  induction steps with
  | zero => simp [probe, h.decodes, Nat.add_comm 1 more]
  | succ steps ih =>
    obtain ⟨e, he⟩ := h.fails (steps + 1) (Nat.succ_pos _) (Nat.le_refl _)
    have hshorter : DecodesAt bytes length steps decoded :=
      ⟨h.decodes, fun more hpos hmore => h.fails more hpos (Nat.le_succ_of_le hmore)⟩
    have htries : steps + 1 + 1 + more = steps + 1 + more + 1 := by omega
    rw [htries, probe, he]
    exact ih hshorter

/-- Decoding shorter and shorter beginnings gives the character offset. -/
theorem probe_eq_charOffset (s : List Char) (bytes : Nat) :
    probe (utf8Bytes s) bytes 5 = charOffset s bytes := by
  obtain ⟨length, steps, hbytes, hsteps, hdecodes⟩ := exists_decodesAt s bytes
  obtain ⟨more, hmore⟩ : ∃ more, 5 = steps + 1 + more := ⟨4 - steps, by omega⟩
  have hprobe := hdecodes.probe_eq more
  rw [← hbytes, ← hmore] at hprobe
  exact hprobe.trans (List.length_take_of_le (charsWithin_le_length _ _))

/-! ## Texts between two starts of characters -/

theorem charsWithin_byteLength_take {s : List Char} {k : Nat} (h : k ≤ s.length) :
    charsWithin (byteLength (s.take k)) s = k := by
  have hoffset := charsWithin_append (s.take k) (s.drop k) 0
  rwa [List.take_append_drop, charsWithin_zero, List.length_take_of_le h] at hoffset

theorem take_utf8Bytes (s : List Char) (k : Nat) :
    (utf8Bytes s).take (byteLength (s.take k)) = utf8Bytes (s.take k) := by
  conv => lhs; rw [← List.take_append_drop k s]
  rw [utf8Bytes_append, ← length_utf8Bytes, List.take_append_drop, List.take_left]

theorem drop_utf8Bytes (s : List Char) (k : Nat) :
    (utf8Bytes s).drop (byteLength (s.take k)) = utf8Bytes (s.drop k) := by
  conv => lhs; rw [← List.take_append_drop k s]
  rw [utf8Bytes_append, ← length_utf8Bytes, List.take_append_drop, List.drop_left]

/-- The characters between two starts of characters. -/
theorem slice_byteLength_take {s : List Char} {i j : Nat} (hi : i ≤ s.length) (hj : j ≤ s.length) :
    slice s (byteLength (s.take i)) (byteLength (s.take j)) = (s.take j).drop i := by
  rw [slice, charsWithin_byteLength_take hi]
  by_cases hij : i ≤ j
  · have hbetween : (s.drop i).take (j - i) = (s.take j).drop i := (List.drop_take).symm
    have hbytes : byteLength (s.take j) - byteLength (s.take i) =
        byteLength ((s.drop i).take (j - i)) := by
      obtain ⟨more, rfl⟩ := Nat.exists_eq_add_of_le hij
      rw [List.take_add, byteLength_append, Nat.add_sub_cancel_left, Nat.add_sub_cancel_left]
    have hlength : j - i ≤ (s.drop i).length := by
      rw [List.length_drop]
      omega
    rw [hbytes, charsWithin_byteLength_take hlength, hbetween]
  · have hbytes := byteLength_take_mono s (Nat.le_of_not_le hij)
    have hempty : (s.take j).length ≤ i := by
      rw [List.length_take_of_le hj]
      omega
    rw [Nat.sub_eq_zero_of_le hbytes, charsWithin_zero, List.take_zero,
      List.drop_eq_nil_of_le hempty]

/-- The bytes between two starts of characters are those of the characters between them. -/
theorem drop_take_utf8Bytes {s : List Char} {i j : Nat} (hj : j ≤ s.length) :
    ((utf8Bytes s).take (byteLength (s.take j))).drop (byteLength (s.take i)) =
      utf8Bytes ((s.take j).drop i) := by
  rw [take_utf8Bytes]
  by_cases hij : i ≤ j
  · have htake : s.take i = (s.take j).take i := by rw [List.take_take, Nat.min_eq_left hij]
    rw [htake, drop_utf8Bytes]
  · have hbytes := byteLength_take_mono s (Nat.le_of_not_le hij)
    have hempty : (s.take j).length ≤ i := by
      rw [List.length_take_of_le hj]
      omega
    rw [List.drop_eq_nil_of_le hempty, List.drop_eq_nil_of_le (by rwa [length_utf8Bytes])]
    rfl

/-- A number of bytes after which a character of the text starts, or the text ends. -/
def IsBoundary (s : List Char) (bytes : Nat) : Prop :=
  ∃ k ≤ s.length, bytes = (encodeUtf8 (.ofList (s.take k))).length

end Text

/-- **Byte offsets convert exactly.** The character offset of a byte offset is the largest number of
characters whose encoding has no more bytes. So the conversion is monotone and inverts the length of
the encoding, and it comes to the same as decoding shorter and shorter beginnings of the bytes, at
most five. If a node starts and stops between characters, the characters of its range are its text,
and its bytes decode to them. -/
theorem offsets_convert_exactly (s : List Char) :
    (∀ b : Int, IsGreatest {k | k ≤ s.length ∧
        ((Text.encodeUtf8 (.ofList (s.take k))).length : Int) ≤ max b 0} (Text.charOffset s b)) ∧
      (∀ b : Int, (Text.encodeUtf8 (.ofList s)).length ≤ b → Text.charOffset s b = s.length) ∧
      (∀ a b : Int, a ≤ b → Text.charOffset s a ≤ Text.charOffset s b) ∧
      (∀ k ≤ s.length,
        Text.charOffset s (Text.encodeUtf8 (.ofList (s.take k))).length = k) ∧
      (∀ b : Int, Text.charOffset s b = Text.probe (Text.encodeUtf8 (.ofList s)) b.toNat 5) ∧
      ∀ root t : Tree, Text.IsBoundary s t.span.start → Text.IsBoundary s t.span.stop →
        let d : Document := ⟨s, root⟩
        (d.textOf t).toList = (s.take (d.charRange t).2).drop (d.charRange t).1 ∧
          Text.decodeUtf8 (((Text.encodeUtf8 (.ofList s)).take t.span.stop).drop t.span.start) =
            .ok (d.textOf t).toList := by
  simp only [Text.IsBoundary, Text.encodeUtf8_ofList, Text.length_utf8Bytes]
  refine ⟨Text.isGreatest_charOffset s, fun b hb => ?_, fun a b h => Text.charOffset_mono h s,
    fun k hk => ?_, fun b => ?_, ?_⟩
  · exact Text.charsWithin_of_byteLength_le (by omega)
  · exact Text.charsWithin_byteLength_take hk
  · rw [Text.probe_eq_charOffset]
    rfl
  · rintro root t ⟨i, hi, hstart⟩ ⟨j, hj, hstop⟩
    simp only [Document.textOf, Document.charRange, Text.charOffset, Int.toNat_natCast, hstart,
      hstop, String.toList_ofList, Text.slice_byteLength_take hi hj, Text.charsWithin_byteLength_take hi,
      Text.charsWithin_byteLength_take hj, Text.drop_take_utf8Bytes hj, Text.decodeUtf8_utf8Bytes,
      and_self]

/-- A node over characters of two and four bytes, and an offset within the second of them. -/
theorem offsets_convert_exactly_wide :
    let s := "aé😀b".toList
    let t : Tree := .node none .string ⟨1, 7⟩ []
    Text.IsBoundary s 1 ∧ Text.IsBoundary s 7 ∧ Text.charOffset s 6 = 2 ∧
      Text.probe (Text.encodeUtf8 (.ofList s)) 6 5 = 2 ∧
      ((Document.mk s t).textOf t).toList = "é😀".toList ∧
      Text.decodeUtf8 (((Text.encodeUtf8 (.ofList s)).take 7).drop 1) = .ok "é😀".toList := by
  intro s t
  have hstart : Text.IsBoundary s 1 := ⟨1, by decide, by decide +kernel⟩
  have hstop : Text.IsBoundary s 7 := ⟨3, by decide, by decide +kernel⟩
  obtain ⟨-, -, -, -, hprobe, hnode⟩ := offsets_convert_exactly s
  obtain ⟨htext, hdecode⟩ := hnode t t hstart hstop
  have hrange : (s.take ((Document.mk s t).charRange t).2).drop ((Document.mk s t).charRange t).1 =
      "é😀".toList := by
    decide
  rw [hrange] at htext
  rw [htext] at hdecode
  exact ⟨hstart, hstop, by decide, (hprobe 6).symm.trans (by decide), htext, hdecode⟩

end UiMarkup
