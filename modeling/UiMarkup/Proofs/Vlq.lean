import UiMarkup.SourceMap.Vlq

/-!
# Variable-length quantities read back

Decoding goes through the base 64 values of an integer and gathers their bits, so a row of encoded
integers is read back one integer at a time.

* `valueOf?_charOf`: the alphabet tells all values below 64 apart.
* `decodeFrom_encode`: after the text of an integer, decoding goes on as at the start of a segment.
-/

namespace UiMarkup.Vlq

/-- The alphabet tells all values below 64 apart. -/
theorem valueOf?_charOf {v : Nat} (h : v < 64) : valueOf? (charOf v) = some v := by
  revert v
  decide +kernel

theorem charOf_mem_alphabet {v : Nat} (h : v < 64) : charOf v ∈ alphabet := by
  revert v
  decide +kernel

theorem groups_ne_nil (n : Nat) : groups n ≠ [] := by
  unfold groups
  split <;> simp

theorem lt_of_mem_groups {n v : Nat} (h : v ∈ groups n) : v < 64 := by
  fun_induction groups n with
  | case1 n hn =>
    rw [List.mem_singleton] at h
    omega
  | case2 n hn ih =>
    rcases List.mem_cons.mp h with rfl | h
    · omega
    · exact ih h

theorem encode_ne_nil (n : Int) : encode n ≠ [] := by
  simp [encode, groups_ne_nil]

theorem mem_alphabet_of_mem_encode {n : Int} {c : Char} (h : c ∈ encode n) : c ∈ alphabet := by
  obtain ⟨v, hv, rfl⟩ := List.mem_map.mp h
  exact charOf_mem_alphabet (lt_of_mem_groups hv)

/-- The unsigned form keeps the integer. -/
theorem unzigzag_zigzag (n : Int) : unzigzag (zigzag n) = n := by
  unfold zigzag unzigzag
  split <;> split <;> omega

/-- A value with the continuation bit adds its bits to those read so far. -/
theorem decodeFrom_more (bits weight : Nat) {v : Nat} (h : v < 32) (s : List Char) :
    decodeFrom bits weight (charOf (v + 32) :: s) =
      decodeFrom (bits + v * weight) (weight * 32) s := by
  have hv : (v + 32) % 32 = v := by omega
  simp only [decodeFrom, valueOf?_charOf (show v + 32 < 64 by omega), hv]
  rw [if_pos (by omega)]

/-- A value without the continuation bit ends the integer. -/
theorem decodeFrom_last (bits weight : Nat) {v : Nat} (h : v < 32) {s : List Char} {ns : List Int}
    (hs : decodeFrom 0 1 s = .ok ns) :
    decodeFrom bits weight (charOf v :: s) = .ok (unzigzag (bits + v * weight) :: ns) := by
  simp only [decodeFrom, valueOf?_charOf (show v < 64 by omega), Nat.mod_eq_of_lt h, hs]
  rw [if_neg (by omega)]

/-- The base 64 values of an unsigned integer are read back as its bits. -/
theorem decodeFrom_groups (n bits weight : Nat) {s : List Char} {ns : List Int}
    (hs : decodeFrom 0 1 s = .ok ns) :
    decodeFrom bits weight ((groups n).map charOf ++ s) =
      .ok (unzigzag (bits + n * weight) :: ns) := by
  fun_induction groups n generalizing bits weight with
  | case1 n hn => exact decodeFrom_last bits weight hn hs
  | case2 n hn ih =>
    have hbits : bits + n % 32 * weight + n / 32 * (weight * 32) = bits + n * weight := by
      have : n % 32 * weight + n / 32 * (weight * 32) = n * weight := by
        calc n % 32 * weight + n / 32 * (weight * 32)
            = (n % 32 + 32 * (n / 32)) * weight := by
              rw [Nat.add_mul, Nat.mul_comm weight 32, ← Nat.mul_assoc, Nat.mul_comm (n / 32) 32]
          _ = n * weight := by rw [Nat.mod_add_div]
      omega
    rw [List.map_cons, List.cons_append, decodeFrom_more bits weight (by omega), ih, hbits]

/-- After the text of an integer, decoding goes on as at the start of a segment. -/
theorem decodeFrom_encode (n : Int) {s : List Char} {ns : List Int}
    (hs : decodeFrom 0 1 s = .ok ns) : decodeFrom 0 1 (encode n ++ s) = .ok (n :: ns) := by
  have h := decodeFrom_groups (zigzag n) 0 1 hs
  rwa [Nat.mul_one, Nat.zero_add, unzigzag_zigzag] at h

end UiMarkup.Vlq
