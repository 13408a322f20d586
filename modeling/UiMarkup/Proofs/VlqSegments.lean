import Mathlib.Algebra.Group.Nat.Defs
import UiMarkup.Proofs.Vlq

/-!
# Segments of variable-length quantities

A segment is a row of integers, one text after the other. The continuation bit of a character tells
whether its integer goes on, so the texts need no separators, and a text over the alphabet is a
segment unless it breaks off within an integer.

* `segments_read_back`: the texts of integers are a segment of these integers, and each text shows
  where it ends.
* `decodeFrom_eq_bad_iff`, `decodeFrom_eq_cut_iff`: exactly when a text is no segment.
* `length_encode_le_of_decodeFrom`: nothing shorter than the texts of integers holds them.
* `decode_exact`: all this for any text.
-/

namespace UiMarkup.Vlq

/-! ## Characters -/

/-- The continuation bit of a character: the integer goes on after it. -/
def continues (c : Char) : Bool :=
  (valueOf? c).any (·.testBit 5)

theorem valueOf?_eq_none_iff {c : Char} : valueOf? c = none ↔ c ∉ alphabet := by
  unfold valueOf?
  rw [List.findIdx?_eq_none_iff]
  constructor
  · intro h hc
    simpa using h c hc
  · intro h d hd
    rw [beq_eq_false_iff_ne]
    rintro rfl
    exact h hd

theorem mem_alphabet_of_valueOf? {c : Char} {v : Nat} (h : valueOf? c = some v) :
    c ∈ alphabet := by
  apply Decidable.byContradiction
  intro hc
  rw [valueOf?_eq_none_iff.mpr hc] at h
  cases h

/-- The continuation bit is the highest of the six bits of a value. -/
theorem continues_eq {c : Char} {v : Nat} (h : valueOf? c = some v) :
    continues c = decide (32 ≤ v) := by
  have hlt : v < 64 := (List.findIdx?_eq_some_iff_findIdx_eq.mp h).1
  have hbit : ∀ v < 64, v.testBit 5 = decide (32 ≤ v) := by decide
  rw [continues, h, Option.any_some, hbit v hlt]

theorem continues_charOf {v : Nat} (h : v < 64) : continues (charOf v) = decide (32 ≤ v) :=
  continues_eq (valueOf?_charOf h)

/-! ## The text of an integer -/

/-- The continuation bit is set in all characters of an integer but the last. -/
theorem map_continues_encode (n : Int) :
    (encode n).map continues = List.replicate ((encode n).length - 1) true ++ [false] := by
  unfold encode
  generalize zigzag n = m
  rw [List.map_map, List.length_map]
  fun_induction groups m with
  | case1 m hm =>
    have hlast : continues (charOf m) = false := by
      rw [continues_charOf (by omega)]
      simpa using hm
    simp [hlast]
  | case2 m hm ih =>
    have hmore : continues (charOf (m % 32 + 32)) = true := by
      rw [continues_charOf (by omega)]
      simp
    have hpos := List.length_pos_iff.mpr (groups_ne_nil (m / 32))
    have hlength : (groups (m / 32)).length = (groups (m / 32)).length - 1 + 1 := by omega
    rw [List.map_cons, ih, Function.comp_apply, hmore, List.length_cons, Nat.add_sub_cancel,
      hlength, List.replicate_succ, Nat.add_sub_cancel, List.cons_append]

theorem decodeFrom_flatMap_encode (ns : List Int) :
    decodeFrom 0 1 (ns.flatMap encode) = .ok ns := by
  induction ns with
  | nil => rfl
  | cons n ns ih =>
    rw [List.flatMap_cons]
    exact decodeFrom_encode n ih

/-- The texts of integers are a segment of these integers. -/
theorem decode_flatMap_encode (ns : List Int) :
    decode (String.ofList (ns.flatMap encode)) = .ok ns := by
  rw [decode, String.toList_ofList, decodeFrom_flatMap_encode]

/-- **Segments are read back.** The texts of any integers, one after the other, are decoded to these
integers. The text of an integer is not empty, consists of characters of the alphabet, and has the
continuation bit set in all of them but the last. -/
theorem segments_read_back (ns : List Int) :
    decode (String.ofList (ns.flatMap encode)) = .ok ns ∧
      ∀ n : Int, encode n ≠ [] ∧ (encode n).all (alphabet.contains ·) ∧
        (encode n).map continues = List.replicate ((encode n).length - 1) true ++ [false] := by
  refine ⟨decode_flatMap_encode ns, fun n => ⟨encode_ne_nil n, ?_, map_continues_encode n⟩⟩
  rw [List.all_eq_true]
  intro c hc
  rw [List.contains_iff_mem]
  exact mem_alphabet_of_mem_encode hc

/-! ## Texts that are no segments -/

/-- A text breaks off within an integer; `begun` tells whether an integer is begun before it. -/
def breaksOff (begun : Bool) (s : List Char) : Bool :=
  (s.map continues).getLastD begun

theorem breaksOff_cons (begun : Bool) (c : Char) (s : List Char) :
    breaksOff begun (c :: s) = breaksOff (continues c) s := by
  rw [breaksOff, List.map_cons, List.getLastD_cons, breaksOff]

theorem breaksOff_false (s : List Char) : breaksOff false s = s.getLast?.any continues := by
  rw [breaksOff, List.getLastD_eq_getLast?, List.getLast?_map]
  cases s.getLast? <;> rfl

/-- Decoding stops at the first character that is not in the alphabet. -/
theorem decodeFrom_eq_bad_iff {bits weight : Nat} {s : List Char} {d : Char} :
    decodeFrom bits weight s = .error (some d) ↔ s.find? (· ∉ alphabet) = some d := by
  fun_induction decodeFrom bits weight s with
  | case1 | case2 => simp
  | case3 bits weight c s hc =>
    rw [List.find?_cons_of_pos (by simpa using valueOf?_eq_none_iff.mp hc)]
    simp
  | case4 bits weight c s v hv bits' hmore ih =>
    rw [List.find?_cons_of_neg (by simpa using mem_alphabet_of_valueOf? hv)]
    exact ih
  | case5 bits weight c s v hv hlast e he ih =>
    rw [List.find?_cons_of_neg (by simpa using mem_alphabet_of_valueOf? hv), ← ih, he]
  | case6 bits weight c s v hv bits' hlast ns hns ih =>
    rw [List.find?_cons_of_neg (by simpa using mem_alphabet_of_valueOf? hv), ← ih, hns]
    simp

/-- Decoding comes to an end within an integer if the last character has the continuation bit. -/
theorem decodeFrom_eq_cut_iff {bits weight : Nat} {s : List Char} :
    decodeFrom bits weight s = .error none ↔
      (∀ c ∈ s, c ∈ alphabet) ∧ breaksOff (weight != 1) s := by
  fun_induction decodeFrom bits weight s with
  | case1 => simp [breaksOff]
  | case2 bits weight hw => simpa [breaksOff] using hw
  | case3 bits weight c s hc => simp [valueOf?_eq_none_iff.mp hc]
  | case4 bits weight c s v hv bits' hmore ih =>
    have hw : (weight * 32 != 1) = true := by
      rw [bne_iff_ne]
      omega
    rw [ih, breaksOff_cons, continues_eq hv, List.forall_mem_cons, hw, decide_eq_true hmore]
    simp [mem_alphabet_of_valueOf? hv]
  | case5 bits weight c s v hv hlast e he ih =>
    rw [breaksOff_cons, continues_eq hv, List.forall_mem_cons, decide_eq_false hlast]
    simp only [he] at ih
    simp [mem_alphabet_of_valueOf? hv, ih]
  | case6 bits weight c s v hv bits' hlast ns hns ih =>
    rw [breaksOff_cons, continues_eq hv, List.forall_mem_cons, decide_eq_false hlast]
    simp only [hns] at ih
    simpa [mem_alphabet_of_valueOf? hv] using ih

/-- Decoding succeeds in all other cases. -/
theorem exists_decodeFrom_eq_ok_iff {bits weight : Nat} {s : List Char} :
    (∃ ns, decodeFrom bits weight s = .ok ns) ↔
      (∀ c ∈ s, c ∈ alphabet) ∧ breaksOff (weight != 1) s = false := by
  cases hr : decodeFrom bits weight s with
  | ok ns =>
    have hall : ∀ c ∈ s, c ∈ alphabet := by
      have hnone : s.find? (· ∉ alphabet) = none := by
        rw [Option.eq_none_iff_forall_ne_some]
        intro d hd
        rw [decodeFrom_eq_bad_iff.mpr hd] at hr
        cases hr
      simpa using hnone
    have hb : breaksOff (weight != 1) s = false := by
      rw [← Bool.not_eq_true]
      intro hb
      rw [decodeFrom_eq_cut_iff.mpr ⟨hall, hb⟩] at hr
      cases hr
    exact ⟨fun _ => ⟨hall, hb⟩, fun _ => ⟨ns, rfl⟩⟩
  | error e =>
    refine ⟨nofun, fun ⟨hall, hb⟩ => ?_⟩
    cases e with
    | none =>
      have hcut := (decodeFrom_eq_cut_iff.mp hr).2
      rw [hb] at hcut
      cases hcut
    | some d =>
      have hd := decodeFrom_eq_bad_iff.mp hr
      have hbad : d ∉ alphabet := by simpa using List.find?_some hd
      exact absurd (hall d (List.mem_of_find?_eq_some hd)) hbad

/-! ## The integers of a segment -/

/-- There are as many integers as characters that end one. -/
theorem length_of_decodeFrom {bits weight : Nat} {s : List Char} {ns : List Int}
    (h : decodeFrom bits weight s = .ok ns) : ns.length = s.countP (!continues ·) := by
  fun_induction decodeFrom bits weight s generalizing ns with
  | case1 =>
    cases h
    rfl
  | case2 | case3 | case5 => cases h
  | case4 bits weight c s v hv bits' hmore =>
    rename_i ih
    rw [ih h, List.countP_cons_of_neg]
    simpa [continues_eq hv] using hmore
  | case6 bits weight c s v hv bits' hlast ns' hns =>
    rename_i ih
    cases h
    rw [List.length_cons, ih hns, List.countP_cons_of_pos]
    simpa [continues_eq hv] using hlast

/-- An integer of `5 * (k + 1)` bits takes at most `k + 1` characters. -/
theorem length_groups_le {k n : Nat} (h : n < 32 ^ (k + 1)) : (groups n).length ≤ k + 1 := by
  induction k generalizing n with
  | zero =>
    rw [groups, if_pos (by omega)]
    exact Nat.le_refl 1
  | succ k ih =>
    rw [groups]
    split
    · simp
    · have hdiv : n / 32 < 32 ^ (k + 1) := Nat.div_lt_of_lt_mul (by rw [Nat.mul_comm]; exact h)
      rw [List.length_cons]
      exact Nat.succ_le_succ (ih hdiv)

/-- The unsigned form of an integer is the least one: the other form of zero is odd. -/
theorem zigzag_unzigzag_le (n : Nat) : zigzag (unzigzag n) ≤ n := by
  unfold unzigzag
  split <;> unfold zigzag <;> split <;> omega

theorem length_encode_unzigzag_le {k n : Nat} (h : n < 32 ^ (k + 1)) :
    (encode (unzigzag n)).length ≤ k + 1 := by
  rw [encode, List.length_map]
  exact length_groups_le (Nat.lt_of_le_of_lt (zigzag_unzigzag_le n) h)

/-- A character adds five bits. -/
theorem add_mul_lt {k bits : Nat} (h : bits < 32 ^ k) (v : Nat) :
    bits + v % 32 * 32 ^ k < 32 ^ (k + 1) := by
  have hv : v % 32 * 32 ^ k ≤ 31 * 32 ^ k := Nat.mul_le_mul_right _ (by omega)
  rw [Nat.pow_succ]
  omega

/-- The texts of the integers that are decoded are no longer than what they are decoded from, the
`k` characters before it that begin an integer included. -/
theorem length_encode_le_of_decodeFrom {k bits weight : Nat} {s : List Char} {ns : List Int}
    (hweight : weight = 32 ^ k) (hbits : bits < weight) (h : decodeFrom bits weight s = .ok ns) :
    (ns.flatMap encode).length ≤ k + s.length := by
  fun_induction decodeFrom bits weight s generalizing k ns with
  | case1 =>
    cases h
    exact Nat.zero_le _
  | case2 | case3 | case5 => cases h
  | case4 bits weight c s v hv bits' hmore =>
    rename_i ih
    subst hweight
    have hle := ih (k := k + 1) (Nat.pow_succ ..).symm (add_mul_lt hbits v) h
    rw [List.length_cons]
    omega
  | case6 bits weight c s v hv bits' hlast ns' hns =>
    rename_i ih
    subst hweight
    cases h
    have hfirst : (encode (unzigzag bits')).length ≤ k + 1 :=
      length_encode_unzigzag_le (add_mul_lt hbits v)
    have hrest := ih (k := 0) rfl (by decide) hns
    rw [List.flatMap_cons, List.length_append, List.length_cons]
    omega

/-! ## Any text -/

theorem decode_eq_ok_iff {segment : String} {ns : List Int} :
    decode segment = .ok ns ↔ decodeFrom 0 1 segment.toList = .ok ns := by
  unfold decode
  split <;> simp_all

theorem decode_eq_bad_iff {segment : String} {c : Char} :
    decode segment = .error (.badCharacter c) ↔
      decodeFrom 0 1 segment.toList = .error (some c) := by
  unfold decode
  split <;> simp_all

theorem decode_eq_truncated_iff {segment s : String} :
    decode segment = .error (.truncated s) ↔
      s = segment ∧ decodeFrom 0 1 segment.toList = .error none := by
  unfold decode
  split <;> simp_all [eq_comm (a := segment)]

/-- **Decoding is exact.** It fails at the first character that is not in the alphabet, if there is
one, and otherwise at the end if the last character has the continuation bit. Otherwise it gives as
many integers as there are characters without the continuation bit, and the texts of these integers
are a segment of the same integers that is no longer. -/
theorem decode_exact (segment : String) :
    let text := segment.toList
    (∀ c, decode segment = .error (.badCharacter c) ↔ text.find? (· ∉ alphabet) = some c) ∧
      (∀ s, decode segment = .error (.truncated s) ↔
        s = segment ∧ (∀ c ∈ text, c ∈ alphabet) ∧ text.getLast?.any continues = true) ∧
      ((∃ ns, decode segment = .ok ns) ↔
        (∀ c ∈ text, c ∈ alphabet) ∧ text.getLast?.any continues = false) ∧
      ∀ ns, decode segment = .ok ns →
        ns.length = text.countP (!continues ·) ∧
          decode (String.ofList (ns.flatMap encode)) = .ok ns ∧
          (ns.flatMap encode).length ≤ text.length := by
  intro text
  have hcut := @decodeFrom_eq_cut_iff 0 1 text
  have hok := @exists_decodeFrom_eq_ok_iff 0 1 text
  rw [show ((1 : Nat) != 1) = false from rfl, breaksOff_false] at hcut hok
  refine ⟨fun c => ?_, fun s => ?_, ?_, fun ns hns => ?_⟩
  · rw [decode_eq_bad_iff, decodeFrom_eq_bad_iff]
  · rw [decode_eq_truncated_iff, hcut]
  · simp only [decode_eq_ok_iff]
    exact hok
  · rw [decode_eq_ok_iff] at hns
    have hle := length_encode_le_of_decodeFrom (k := 0) rfl (by decide) hns
    rw [Nat.zero_add] at hle
    exact ⟨length_of_decodeFrom hns, decode_flatMap_encode ns, hle⟩

/-- A segment that is longer than it need be: a zero with a digit that adds nothing, a negative
zero, and an integer as it is written. -/
theorem decode_exact_padded :
    decode "gABjC" = .ok [0, 0, -33] ∧
      decode (String.ofList ([0, 0, -33].flatMap encode)) = .ok [0, 0, -33] ∧
      ([0, 0, -33].flatMap encode).length ≤ 5 := by
  have hdecode : decode "gABjC" = .ok [0, 0, -33] := by rfl
  obtain ⟨-, -, -, hall⟩ := decode_exact "gABjC"
  exact ⟨hdecode, (hall [0, 0, -33] hdecode).2⟩

/-- A character that is not in the alphabet counts before an integer that breaks off. -/
example : decode "gg!?g" = .error (.badCharacter '!') := by rfl

end UiMarkup.Vlq
