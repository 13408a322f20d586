import UiMarkup.Dom.Mask
import UiMarkup.Proofs.SingleLine

/-!
# Masking keeps lines apart

The masked word holds neither a line end nor a quote, so masking works on each line and on each
literal by itself.

* `maskChars_append_cons`: what stands before and after a character that the masked word does not
  hold is masked separately.
* `splitOn_maskUndefined`: the lines of masked code are the masked lines.
-/

namespace UiMarkup

section
variable {c : Char} (hc : c ∉ maskedWord)
include hc

/-- Up to a character that the masked word does not hold, a text starts with the masked word or it
does not, whatever follows. -/
theorem isPrefixOf_append_cons (s t : List Char) :
    maskedWord.isPrefixOf (s ++ c :: t) = maskedWord.isPrefixOf s := by
  rw [Bool.eq_iff_iff, List.isPrefixOf_iff_prefix, List.isPrefixOf_iff_prefix]
  constructor
  · intro h
    have hline : s ++ [c] <+: s ++ c :: t := by simp
    rcases List.prefix_or_prefix_of_prefix h hline with h | h
    · rcases List.prefix_concat_iff.mp h with h | h
      · exact absurd (show c ∈ maskedWord by rw [h]; simp) hc
      · exact h
    · exact absurd (h.mem (show c ∈ s ++ [c] by simp)) hc
  · intro h
    exact h.trans (List.prefix_append s _)

/-- What stands before and after a character that the masked word does not hold is masked
separately. -/
theorem maskChars_append_cons (s t : List Char) :
    maskChars (s ++ c :: t) = maskChars s ++ c :: maskChars t := by
  induction s with
  | nil =>
    have hword : maskedWord.isPrefixOf (c :: t) = false := isPrefixOf_append_cons hc [] t
    simp [maskChars, hword]
  | cons d s ih =>
    have hword := isPrefixOf_append_cons hc (d :: s) t
    rw [List.cons_append] at hword ⊢
    simp only [maskChars, hword, ih]
    split
    · rw [List.append_assoc]
    · rw [List.cons_append]

end

theorem newline_mem_of_mem_maskChars {s : List Char} (h : '\n' ∈ maskChars s) : '\n' ∈ s := by
  have hescape : '\n' ∉ "\\u0075".toList := by decide
  induction s with
  | nil => exact h
  | cons c s ih =>
    rw [maskChars] at h
    split at h
    · rcases List.mem_append.mp h with h | h
      · exact absurd h hescape
      · exact List.mem_cons_of_mem c (ih h)
    · rcases List.mem_cons.mp h with h | h
      · exact h ▸ List.mem_cons_self
      · exact List.mem_cons_of_mem c (ih h)

theorem maskChars_eq_nil_iff {s : List Char} : maskChars s = [] ↔ s = [] := by
  cases s with
  | nil => simp [maskChars]
  | cons c s =>
    rw [maskChars]
    split <;> simp

/-- The lines of masked code are the masked lines. -/
theorem splitOn_maskUndefined {lines : List String} (hne : lines ≠ [])
    (h : ∀ line ∈ lines, Text.SingleLine line) :
    (maskUndefined ("\n".intercalate lines)).toList.splitOn '\n' =
      lines.map fun line => maskChars line.toList := by
  have hmask (pieces : List (List Char)) :
      maskChars (['\n'].intercalate pieces) = ['\n'].intercalate (pieces.map maskChars) := by
    induction pieces with
    | nil => rfl
    | cons piece pieces ih =>
      cases pieces with
      | nil => simp
      | cons next pieces =>
        rw [List.intercalate_cons_cons, List.append_assoc, List.singleton_append,
          maskChars_append_cons (by decide), ih]
        simp
  simp only [maskUndefined, String.toList_ofList, String.toList_intercalate]
  rw [show "\n".toList = ['\n'] from rfl, hmask, List.splitOn_intercalate, List.map_map]
  · rfl
  · simp only [List.map_map, List.forall_mem_map]
    intro line hline hmem
    exact h line hline (newline_mem_of_mem_maskChars hmem)
  · simpa using hne

end UiMarkup
