import UiMarkup.Markup.Lexeme

/-!
# Tokens stand where they say

* `tokensFrom_of_read`, `tokensFrom_of_read_token`: the tokens after the first lexeme.
* `tokensFrom_increasing`: the tokens stand in the order of their offsets.
* `exists_tokensFrom_eq`: the end token is the last one and the only one of its kind.
* `readAt_of_mem`: each token is read off the source at its offset.
* `text_prefix_drop`: the text of a token stands in the source at its offset.
* `continuesIdentifier_of_mem`: an identifier token holds nothing but identifier characters.
-/

namespace UiMarkup

namespace Profile

theorem continuesIdentifier_of_starts {p : Profile} {c : Char} (h : p.startsIdentifier c) :
    p.continuesIdentifier c := by
  simp only [startsIdentifier, continuesIdentifier, Char.isAlphanum] at h ⊢
  grind

/-- Identifiers are written in ASCII and hold no line end. -/
theorem ascii_of_continuesIdentifier {p : Profile} {c : Char} (h : p.continuesIdentifier c) :
    c.toNat < 0x80 ∧ c ≠ '\n' := by
  simp only [continuesIdentifier, Bool.or_eq_true, beq_iff_eq, Bool.and_eq_true] at h
  rcases h with (h | rfl) | ⟨-, rfl⟩
  · change (decide (c.val ≥ 65 ∧ c.val ≤ 90) || (c.val ≥ 97 && c.val ≤ 122) ||
      (c.val ≥ 48 && c.val ≤ 57)) = true at h
    simp only [Bool.or_eq_true, Bool.and_eq_true, decide_eq_true_eq, ge_iff_le,
      UInt32.le_iff_toNat_le, UInt32.reduceToNat] at h
    refine ⟨by simp only [Char.toNat]; omega, ?_⟩
    rintro rfl
    revert h
    decide
  · decide
  · decide

end Profile

namespace Lexeme

/-- An identifier holds nothing but identifier characters. -/
theorem continuesIdentifier_of_read {p : Profile} {c : Char} {s : List Char}
    (h : (read p c s).kind = .token .identifier) :
    ∀ x ∈ (read p c s).text, p.continuesIdentifier x := by
  have hslash : (slash s).kind ≠ .token .identifier := by
    fun_cases slash s <;> simp [enclosed]
  unfold read at h ⊢
  split
  · simp_all [run]
  split
  · simp_all
  split
  · simp_all [enclosed]
  split
  · simp_all [enclosed]
  split
  · simp_all [number]
  split
  · simp_all
  split
  · next hstart =>
    intro x hx
    rcases List.mem_cons.mp hx with rfl | hx
    · exact Profile.continuesIdentifier_of_starts hstart
    · exact List.all_eq_true.mp List.all_takeWhile x hx
  · simp_all

end Lexeme

theorem tokensFrom_nil (p : Profile) (position : Nat) :
    tokensFrom p position [] = [.endOfText position] := by
  rw [tokensFrom.eq_def]

/-- A lexeme that is no token is skipped. -/
theorem tokensFrom_of_read {p : Profile} {c : Char} {s : List Char} {kind : LexemeKind}
    {text rest : List Char} (h : Lexeme.read p c s = ⟨kind, text, rest⟩)
    (hk : ∀ k, kind ≠ .token k) (position : Nat) :
    tokensFrom p position (c :: s) = tokensFrom p (position + text.length) rest := by
  rw [tokensFrom.eq_def]
  simp only [h]

theorem tokensFrom_of_read_token {p : Profile} {c : Char} {s : List Char} {kind : TokenKind}
    {text rest : List Char} (h : Lexeme.read p c s = ⟨.token kind, text, rest⟩) (position : Nat) :
    tokensFrom p position (c :: s) =
      ⟨kind, String.ofList text, position⟩ :: tokensFrom p (position + text.length) rest := by
  rw [tokensFrom.eq_def]
  simp only [h]

/-- What is read off a text is no end token. -/
theorem Lexeme.kind_ne_eof (p : Profile) (c : Char) (s : List Char) :
    (Lexeme.read p c s).kind ≠ .token .eof := by
  have hslash : (slash s).kind ≠ .token .eof := by
    fun_cases slash s <;> simp [enclosed]
  unfold read run enclosed number
  repeat' split
  all_goals simp [hslash]

theorem le_position_of_mem {p : Profile} {start : Nat} {s : List Char} {t : Token}
    (h : t ∈ tokensFrom p start s) : start ≤ t.position := by
  fun_induction tokensFrom p start s with
  | case1 start =>
    obtain rfl := List.mem_singleton.mp h
    exact Nat.le_refl start
  | case2 start c s lexeme tail kind hkind ih =>
    rcases List.mem_cons.mp h with rfl | h
    · exact Nat.le_refl start
    · exact Nat.le_trans (Nat.le_add_right _ _) (ih h)
  | case3 start c s lexeme tail hkind ih => exact Nat.le_trans (Nat.le_add_right _ _) (ih h)

/-- The tokens stand in the order of their offsets. -/
theorem tokensFrom_increasing (p : Profile) (start : Nat) (s : List Char) :
    (tokensFrom p start s).Pairwise fun t u => t.position < u.position := by
  fun_induction tokensFrom p start s with
  | case1 start => exact List.pairwise_singleton _ _
  | case2 start c s lexeme tail kind hkind ih =>
    refine List.pairwise_cons.mpr ⟨fun u hu => ?_, ih⟩
    have hpos := List.length_pos_iff.mpr (Lexeme.text_ne_nil p c s)
    have hle := le_position_of_mem hu
    exact Nat.lt_of_lt_of_le (Nat.lt_add_of_pos_right hpos) hle
  | case3 start c s lexeme tail hkind ih => exact ih

/-- The end token is the last one and the only one of its kind. -/
theorem exists_tokensFrom_eq (p : Profile) (start : Nat) (s : List Char) :
    ∃ ts, tokensFrom p start s = ts ++ [.endOfText (start + s.length)] ∧
      ∀ t ∈ ts, t.kind ≠ .eof := by
  have hlength (c : Char) (s : List Char) :
      (Lexeme.read p c s).text.length + (Lexeme.read p c s).rest.length = (c :: s).length := by
    rw [← List.length_append, Lexeme.text_append_rest]
  fun_induction tokensFrom p start s with
  | case1 start => exact ⟨[], rfl, by simp⟩
  | case2 start c s lexeme tail kind hkind ih =>
    obtain ⟨ts, htail, hts⟩ := ih
    refine ⟨⟨kind, String.ofList lexeme.text, start⟩ :: ts, ?_, ?_⟩
    · rw [show tail = _ from htail, Nat.add_assoc, hlength]
      rfl
    · have hk : kind ≠ .eof := fun h => Lexeme.kind_ne_eof p c s (by rw [← h]; exact hkind)
      exact List.forall_mem_cons.mpr ⟨hk, hts⟩
  | case3 start c s lexeme tail hkind ih =>
    obtain ⟨ts, htail, hts⟩ := ih
    refine ⟨ts, ?_, hts⟩
    rw [show tail = _ from htail, Nat.add_assoc, hlength]

namespace Token

/-- `t` is read off the text `s`, which starts at the offset `start`, at the offset of `t`. -/
def ReadAt (p : Profile) (start : Nat) (s : List Char) (t : Token) : Prop :=
  start ≤ t.position ∧ ∃ c rest, s.drop (t.position - start) = c :: rest ∧
    (Lexeme.read p c rest).kind = .token t.kind ∧ t.text.toList = (Lexeme.read p c rest).text

/-- What is read after a lexeme is read in the whole text, too. -/
theorem ReadAt.after_lexeme {p : Profile} {start : Nat} {c : Char} {s : List Char} {t : Token}
    (h : ReadAt p (start + (Lexeme.read p c s).text.length) (Lexeme.read p c s).rest t) :
    ReadAt p start (c :: s) t := by
  obtain ⟨hle, c', rest, hdrop, hread⟩ := h
  refine ⟨by omega, c', rest, ?_, hread⟩
  rw [← Lexeme.text_append_rest p c s, ← hdrop, ← Nat.sub_sub, List.drop_append,
    List.drop_eq_nil_of_le (by omega), List.nil_append]

/-- Each token but the last is read off the source at its offset. -/
theorem readAt_of_mem {p : Profile} {start : Nat} {s : List Char} {t : Token}
    (h : t ∈ tokensFrom p start s) (hk : t.kind ≠ .eof) : ReadAt p start s t := by
  fun_induction tokensFrom p start s with
  | case1 start =>
    obtain rfl := List.mem_singleton.mp h
    exact absurd rfl hk
  | case2 start c s lexeme tail kind hkind ih =>
    rcases List.mem_cons.mp h with rfl | h
    · exact ⟨Nat.le_refl _, c, s, by simp, hkind, by simp [lexeme]⟩
    · exact (ih h).after_lexeme
  | case3 start c s lexeme tail hkind ih => exact (ih h).after_lexeme

/-- The text of a token stands in the source at its offset. -/
theorem text_prefix_drop {p : Profile} {start : Nat} {s : List Char} {t : Token}
    (h : t ∈ tokensFrom p start s) (hk : t.kind ≠ .eof) :
    t.text.toList <+: s.drop (t.position - start) := by
  obtain ⟨-, c, rest, hdrop, -, htext⟩ := readAt_of_mem h hk
  rw [hdrop, htext, ← Lexeme.text_append_rest p c rest]
  exact List.prefix_append _ _

/-- An identifier token holds nothing but identifier characters. -/
theorem continuesIdentifier_of_mem {p : Profile} {start : Nat} {s : List Char} {t : Token}
    (h : t ∈ tokensFrom p start s) (hk : t.kind = .identifier) :
    ∀ c ∈ t.text.toList, p.continuesIdentifier c := by
  obtain ⟨-, c, rest, -, hkind, htext⟩ := readAt_of_mem h (by rw [hk]; decide)
  rw [htext]
  exact Lexeme.continuesIdentifier_of_read (hkind.trans (by rw [hk]))

end Token

end UiMarkup
