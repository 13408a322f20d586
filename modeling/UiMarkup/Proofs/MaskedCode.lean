import UiMarkup.Dom.Module
import UiMarkup.Proofs.Masking
import UiMarkup.Proofs.StringLiteral

/-!
# Masked code

Masking removes the masked word for good, and the script reads the masked code as it would have
read the code: a literal keeps its value, wherever it stands.

* `not_infix_maskChars`: masked text does not hold the masked word.
* `maskChars_eq_self`: text without the masked word is left alone.
* `literalValue?_maskUndefined`: a literal keeps its value.
* `maskUndefined_append_doubleQuoted`: a literal is masked by itself.
-/

namespace UiMarkup

/-! ## No occurrence is left -/

/-- Masking brings in nothing but escapes: a word without backslash that masked text starts with is
one that the text starts with. -/
theorem prefix_of_prefix_maskChars {word s : List Char} (hword : '\\' ∉ word)
    (h : word <+: maskChars s) : word <+: s := by
  induction s generalizing word with
  | nil => exact h
  | cons c s ih =>
    cases word with
    | nil => exact List.nil_prefix
    | cons x word =>
      obtain ⟨hx, hrest⟩ := List.ne_and_not_mem_of_not_mem_cons hword
      rw [maskChars] at h
      split at h
      · exact absurd (List.cons_prefix_cons.mp h).1 (Ne.symm hx)
      · obtain ⟨heq, htail⟩ := List.cons_prefix_cons.mp h
        exact List.cons_prefix_cons.mpr ⟨heq, ih hrest htail⟩

/-- Masked text does not start with the masked word. -/
theorem not_prefix_maskChars (s : List Char) : ¬ maskedWord <+: maskChars s := by
  intro h
  have hs : maskedWord <+: s := prefix_of_prefix_maskChars (by decide) h
  cases s with
  | nil => exact absurd hs (by decide)
  | cons c s =>
    rw [maskChars, if_pos (List.isPrefixOf_iff_prefix.mpr hs)] at h
    exact absurd (List.cons_prefix_cons.mp h).1 (by decide)

/-- Masked text does not hold the masked word. -/
theorem not_infix_maskChars (s : List Char) : ¬ maskedWord <:+: maskChars s := by
  have hword : maskedWord = ['u', 'n', 'd', 'e', 'f', 'i', 'n', 'e', 'd'] := rfl
  have hescape (t : List Char) (h : maskedWord <:+: '\\' :: 'u' :: '0' :: '0' :: '7' :: '5' :: t) :
      maskedWord <:+: t := by
    simpa [List.infix_cons_iff, List.cons_prefix_cons, hword] using h
  induction s with
  | nil => decide
  | cons c s ih =>
    intro h
    have hhead := not_prefix_maskChars (c :: s)
    rw [maskChars] at h hhead
    split at h
    · exact ih (hescape _ h)
    · next hc =>
      rw [if_neg hc] at hhead
      exact (List.infix_cons_iff.mp h).elim hhead ih

/-- Text without the masked word is left alone. -/
theorem maskChars_eq_self {s : List Char} (h : ¬ maskedWord <:+: s) : maskChars s = s := by
  induction s with
  | nil => rfl
  | cons c s ih =>
    rw [List.infix_cons_iff, not_or] at h
    rw [maskChars, if_neg (by rw [List.isPrefixOf_iff_prefix]; exact h.1), ih h.2]

/-! ## Literals keep their values -/

/-- A character that does not start the masked word stays. -/
theorem maskChars_cons {c : Char} (h : c ≠ 'u') (s : List Char) :
    maskChars (c :: s) = c :: maskChars s := by
  rw [maskChars, if_neg]
  rw [List.isPrefixOf_iff_prefix]
  intro hprefix
  exact h (List.cons_prefix_cons.mp hprefix).1.symm

/-- Masking keeps the value of a literal: a letter that is masked stands for itself before and
after, since a literal has no `u` after a backslash other than one with a code. -/
theorem literalBody?_maskChars {s v : List Char} (h : Text.literalBody? s = some v) :
    Text.literalBody? (maskChars s) = some v := by
  fun_induction Text.literalBody? s generalizing v with
  | case1 | case4 | case6 | case7 => cases h
  | case2 => exact h
  | case3 a b c d s x hcode ih =>
    obtain ⟨w, hw, rfl⟩ := Option.map_eq_some_iff.mp h
    have hdigits := Text.not_mem_of_codeChar? hcode
    have hletter (e : Char) (he : e ∈ [a, b, c, d]) : e ≠ 'u' := by
      rintro rfl
      exact hdigits _ he (by decide)
    have hword : maskedWord.isPrefixOf ('u' :: a :: b :: c :: d :: s) = false := by
      rw [Bool.eq_false_iff, ne_eq, List.isPrefixOf_iff_prefix]
      intro hprefix
      have ha : 'n' = a := (List.cons_prefix_cons.mp (List.cons_prefix_cons.mp hprefix).2).1
      exact hdigits a (by simp) (by rw [← ha]; decide)
    rw [maskChars_cons (by decide), maskChars, hword, if_neg (by decide),
      maskChars_cons (hletter a (by simp)), maskChars_cons (hletter b (by simp)),
      maskChars_cons (hletter c (by simp)), maskChars_cons (hletter d (by simp)),
      Text.literalBody?, hcode]
    simp [ih hw]
  | case5 c s _ x hesc ih =>
    obtain ⟨w, hw, rfl⟩ := Option.map_eq_some_iff.mp h
    have hc : c ≠ 'u' := by
      rintro rfl
      cases hesc
    rw [maskChars_cons (by decide), maskChars_cons hc, Text.literalBody?_escape hc hesc, ih hw]
    rfl
  | case8 c s _ _ _ hc ih =>
    obtain ⟨w, hw, rfl⟩ := Option.map_eq_some_iff.mp h
    simp only [not_or] at hc
    rw [maskChars]
    split
    · next hword =>
      obtain rfl : 'u' = c :=
        (List.cons_prefix_cons.mp (List.isPrefixOf_iff_prefix.mp hword)).1
      have hcode : Text.codeChar? '0' '0' '7' '5' = some 'u' := by decide
      show Text.literalBody? ('\\' :: 'u' :: '0' :: '0' :: '7' :: '5' :: maskChars s) = _
      rw [Text.literalBody?, hcode]
      simp [ih hw]
    · rw [Text.literalBody?_plain hc.1 hc.2.1 hc.2.2.1 hc.2.2.2, ih hw]
      rfl

/-- A masked literal has the value of the literal. -/
theorem literalValue?_maskUndefined {script value : String}
    (h : Text.literalValue? script = some value) :
    Text.literalValue? (maskUndefined script) = some value := by
  unfold Text.literalValue? at h
  split at h
  · next s hs =>
    obtain ⟨v, hv, rfl⟩ := Option.map_eq_some_iff.mp h
    rw [Text.literalValue?, maskUndefined, String.toList_ofList, hs, maskChars_cons (by decide)]
    simp [literalBody?_maskChars hv]
  · cases h

/-- A quoted text is masked by itself, whatever stands before and after it. -/
theorem maskUndefined_append_doubleQuoted (before v after : String) :
    maskUndefined (before ++ Text.doubleQuoted v ++ after) =
      maskUndefined before ++ maskUndefined (Text.doubleQuoted v) ++ maskUndefined after := by
  have hquote : '"' ∉ maskedWord := by decide
  have hnil : maskChars [] = [] := rfl
  apply String.toList_injective
  simp only [maskUndefined, Text.doubleQuoted, String.toList_append, String.toList_ofList,
    List.cons_append, List.append_assoc, List.nil_append, maskChars_append_cons hquote,
    maskChars_cons (show '"' ≠ 'u' by decide), hnil]

/-- **Masking is complete and keeps meaning.** Masked code does not hold the word `undefined`, and
masking it again changes nothing; hence no generated code holds the word. A text that is quoted and
masked is one complete literal of that text, and it is masked in the same way wherever it stands in
the code; hence the literals of texts, colours and lengths keep their values. -/
theorem masking_complete_and_keeps_literals :
    (∀ code : String, ¬ "undefined".toList <:+: (maskUndefined code).toList ∧
      maskUndefined (maskUndefined code) = maskUndefined code) ∧
    (∀ (options : BuildOptions) (registry : Registry) (nodes : List Component),
      ¬ "undefined".toList <:+: (generate options registry nodes).code.toList) ∧
    (∀ v : String,
      let literal := maskUndefined (Text.doubleQuoted v)
      Text.unescapedQuotes 0 literal.toList = [0, literal.toList.length - 1] ∧
        '\n' ∉ literal.toList ∧ '\r' ∉ literal.toList ∧ Text.literalValue? literal = some v) ∧
    (∀ before v after : String, maskUndefined (before ++ Text.doubleQuoted v ++ after) =
      maskUndefined before ++ maskUndefined (Text.doubleQuoted v) ++ maskUndefined after) ∧
    (∀ v : String,
      Text.literalValue? (maskUndefined (Expr.content (some (.text v)))) = some v ∧
        Text.literalValue? (maskUndefined (Expr.text v).script) = some v ∧
        Text.literalValue? (maskUndefined (Expr.text v).length) = some v) ∧
    ∀ n : Number,
      Text.literalValue? (maskUndefined (Expr.content (some (.number n)))) = some n.text ∧
        Text.literalValue? (maskUndefined (Expr.number n).length) = some (n.text ++ "px") := by
  have hword (code : String) : ¬ maskedWord <:+: (maskUndefined code).toList := by
    rw [maskUndefined, String.toList_ofList]
    exact not_infix_maskChars code.toList
  have hvalue (v : String) :
      Text.literalValue? (maskUndefined (Text.doubleQuoted v)) = some v :=
    literalValue?_maskUndefined (Text.literalValue?_doubleQuoted v)
  refine ⟨fun code => ⟨hword code, ?_⟩, fun _ _ _ => hword _, fun v => ?_,
    maskUndefined_append_doubleQuoted, fun v => ⟨hvalue v, hvalue v, hvalue v⟩,
    fun n => ⟨hvalue n.text, hvalue (n.text ++ "px")⟩⟩
  · rw [maskUndefined, maskChars_eq_self (hword code), String.ofList_toList]
  · obtain ⟨hquotes, hnewline, hreturn⟩ := Text.closed_of_literalValue? (hvalue v)
    exact ⟨hquotes, hnewline, hreturn, hvalue v⟩

end UiMarkup
