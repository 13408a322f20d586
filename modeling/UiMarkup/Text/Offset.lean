/-!
# Byte and character offsets

Positions in a text are counted in characters or in the bytes of its UTF-8 form. `charOffset`
converts a byte offset, `slice` gives the text between two byte offsets, and `byteLength` leads
back.

Main statements: `byteLength_take_charsWithin_le` says that counting characters rounds down, and
`charsWithin_append` that it can be done piece by piece.
-/

namespace UiMarkup.Text

/-- The number of bytes of a text. -/
def byteLength : List Char → Nat
  | [] => 0
  | c :: s => c.utf8Size + byteLength s

/-- The number of characters that lie wholly within the first `bytes` bytes of a text. -/
def charsWithin (bytes : Nat) : List Char → Nat
  | [] => 0
  | c :: s => if c.utf8Size ≤ bytes then charsWithin (bytes - c.utf8Size) s + 1 else 0

/-- The character offset of a byte offset. An offset inside a character counts as the start of it,
one before the text as its start and one past the text as its end. -/
def charOffset (s : List Char) (bytes : Int) : Nat :=
  charsWithin bytes.toNat s

/-- The text between two byte offsets. -/
def slice (s : List Char) (start stop : Nat) : List Char :=
  let rest := s.drop (charsWithin start s)
  rest.take (charsWithin (stop - start) rest)

@[simp] theorem byteLength_append (s t : List Char) :
    byteLength (s ++ t) = byteLength s + byteLength t := by
  induction s with
  | nil => simp [byteLength]
  | cons c s ih => simp [byteLength, ih, Nat.add_assoc]

/-- The characters within a number of bytes take no more bytes than that. -/
theorem byteLength_take_charsWithin_le (bytes : Nat) (s : List Char) :
    byteLength (s.take (charsWithin bytes s)) ≤ bytes := by
  induction s generalizing bytes with
  | nil => simp [byteLength]
  | cons c s ih =>
    unfold charsWithin
    split
    · have := ih (bytes - c.utf8Size)
      simp only [List.take_succ_cons, byteLength]
      omega
    · simp [byteLength]

/-- Past a beginning of the text, conversion goes on in the rest. -/
theorem charsWithin_append (s t : List Char) (bytes : Nat) :
    charsWithin (byteLength s + bytes) (s ++ t) = s.length + charsWithin bytes t := by
  induction s with
  | nil => simp [byteLength]
  | cons c s ih =>
    have : c.utf8Size ≤ byteLength (c :: s) + bytes := by simp only [byteLength]; omega
    have step : byteLength (c :: s) + bytes - c.utf8Size = byteLength s + bytes := by
      simp only [byteLength]; omega
    simp only [List.cons_append, charsWithin, if_pos this, step, ih, List.length_cons]
    omega

/-- No character lies within zero bytes. -/
@[simp] theorem charsWithin_zero (s : List Char) : charsWithin 0 s = 0 := by
  cases s with
  | nil => rfl
  | cons c s =>
    have := c.utf8Size_pos
    simp only [charsWithin]
    rw [if_neg (by omega)]

end UiMarkup.Text
