import Mathlib.Computability.Language
import UiMarkup.Proofs.Tokens

/-!
# The languages of tokens

Each kind of token has a regular language, built from classes of characters by choice (`+`), by
concatenation (`*`) and by repetition (`∗`). What is read off a text as a token of some kind belongs
to the language of that kind, and is an unknown token only where no word of another language starts.

* `Lexeme.Reads`: one constructor for each way to read a lexeme.
* `TokenKind.language`: the language of a kind of tokens.
* `Lexeme.text_mem_language`: a token belongs to the language of its kind.
* `Lexeme.stops_of_identifier`: an identifier goes on as long as there are identifier characters.
* `Lexeme.eq_unknown_of_mem_language`: where an unknown token is read, nothing else starts.
-/

open scoped Computability

namespace UiMarkup

namespace Lexeme

/-! ## Ways to read a lexeme -/

/-- `c` starts neither a blank nor a token, and with what follows it no comment. -/
structure Unclaimed (p : Profile) (c : Char) (s : List Char) : Prop where
  blank : Text.isBlank c = false
  quote : c ∉ ['"', '\'', '`']
  digit : Text.isDigit c = false
  symbol : c ∉ symbols
  identifier : p.startsIdentifier c = false
  comment : c = '/' → ∀ d ∈ s.head?, d ≠ '/' ∧ d ≠ '*'

/-- The lexeme is the first one of the text `c :: s`. -/
inductive Reads (p : Profile) : Char → List Char → Lexeme → Prop where
  | blank {c : Char} {s : List Char} (h : Text.isBlank c) :
      Reads p c s (run .blank Text.isBlank c s)
  | lineComment (s : List Char) : Reads p '/' ('/' :: s)
      ⟨.comment, '/' :: '/' :: s.takeWhile (· != '\n'), s.dropWhile (· != '\n')⟩
  | blockComment (s : List Char) : Reads p '/' ('*' :: s)
      (enclosed .comment ['/', '*'] (blockCommentBody s))
  | string {c : Char} {s : List Char} (h : c = '"' ∨ c = '\'') :
      Reads p c s (enclosed (.token .string) [c] (quotedBody c false s))
  | template (s : List Char) :
      Reads p '`' s (enclosed (.token .template) ['`'] (quotedBody '`' true s))
  | number {c : Char} {s : List Char} (h : Text.isDigit c) : Reads p c s (number c s)
  | symbol {c : Char} {s : List Char} (h : c ∈ symbols) : Reads p c s ⟨.token .symbol, [c], s⟩
  | identifier {c : Char} {s : List Char} (h : p.startsIdentifier c) :
      Reads p c s (run (.token .identifier) p.continuesIdentifier c s)
  | unknown {c : Char} {s : List Char} (h : Unclaimed p c s) :
      Reads p c s ⟨.token .unknown, [c], s⟩

theorem reads_slash (p : Profile) (s : List Char) : Reads p '/' s (slash s) := by
  fun_cases slash s with
  | case1 s => exact .lineComment s
  | case2 s => exact .blockComment s
  | case3 s hline hblock =>
    have hcomment : ∀ d ∈ s.head?, d ≠ '/' ∧ d ≠ '*' := by
      cases s with
      | nil => simp
      | cons d s =>
        rintro _ ⟨⟩
        exact ⟨fun h => hline s (by rw [h]), fun h => hblock s (by rw [h])⟩
    exact .unknown ⟨by decide, by decide, by decide, by decide, by cases p <;> decide,
      fun _ => hcomment⟩

theorem reads (p : Profile) (c : Char) (s : List Char) : Reads p c s (read p c s) := by
  unfold read
  split
  · next h => exact .blank h
  next hblank =>
  split
  · next h => exact h ▸ reads_slash p s
  next hslash =>
  split
  · next h => exact .string h
  next hquote =>
  split
  · next h => exact h ▸ .template s
  next htemplate =>
  split
  · next h => exact .number h
  next hdigit =>
  split
  · next h => exact .symbol h
  next hsymbol =>
  split
  · next h => exact .identifier h
  next hstart =>
  refine .unknown ⟨by simpa using hblank, ?_, by simpa using hdigit, hsymbol,
    by simpa using hstart, fun h => absurd h hslash⟩
  simp only [List.mem_cons, List.not_mem_nil, or_false, not_or]
  exact ⟨fun h => hquote (.inl h), fun h => hquote (.inr h), htemplate⟩

/-! ## Languages -/

/-- The words that are one character of a class. -/
def oneOf (holds : Char → Prop) : Language Char :=
  {w : List Char | ∃ c, holds c ∧ w = [c]}

/-- The word alone. -/
def exactly (w : List Char) : Language Char :=
  {w}

/-- One or more digits. -/
def digits : Language Char :=
  oneOf (Text.isDigit ·) * (oneOf (Text.isDigit ·))∗

/-- One character between quotes: a plain one, or a backslash and any character. -/
def quotedUnit (quote : Char) (spansLines : Bool) : Language Char :=
  oneOf (fun c => c ≠ quote ∧ c ≠ '\\' ∧ (c = '\n' → spansLines = true)) +
    exactly ['\\'] * oneOf (fun _ => True)

/-- A quote, characters, and perhaps the same quote again. -/
def quotedText (quote : Char) (spansLines : Bool) : Language Char :=
  exactly [quote] * ((quotedUnit quote spansLines)∗ * (1 + exactly [quote]))

end Lexeme

open Lexeme

/-- The language of a kind of tokens. The end token is empty. -/
def TokenKind.language (p : Profile) : TokenKind → Language Char
  | identifier => oneOf (p.startsIdentifier ·) * (oneOf (p.continuesIdentifier ·))∗
  | string => quotedText '"' false + quotedText '\'' false
  | template => quotedText '`' true
  | number => digits * (1 + exactly ['.'] * digits)
  | symbol => oneOf (· ∈ symbols)
  | unknown => oneOf fun _ => True
  | eof => 1

namespace Lexeme

theorem mem_oneOf {holds : Char → Prop} {c : Char} (h : holds c) : [c] ∈ oneOf holds :=
  ⟨c, h, rfl⟩

theorem mem_exactly (w : List Char) : w ∈ exactly w :=
  rfl

theorem mem_oneOf_kstar {holds : Char → Prop} {s : List Char} (h : ∀ c ∈ s, holds c) :
    s ∈ (oneOf holds)∗ := by
  refine ⟨s.map fun c => [c], ?_, fun w hw => ?_⟩
  · rw [← List.flatMap_def, List.flatMap_singleton']
  · obtain ⟨c, hc, rfl⟩ := List.mem_map.mp hw
    exact mem_oneOf (h c hc)

/-- A character of one class and a run of another. -/
theorem cons_mem_oneOf_mul {first : Char → Prop} {more : Char → Bool} {c : Char} (hc : first c)
    (s : List Char) : c :: s.takeWhile more ∈ oneOf first * (oneOf (more ·))∗ :=
  Language.append_mem_mul (mem_oneOf hc)
    (mem_oneOf_kstar (List.all_eq_true.mp List.all_takeWhile))

theorem append_mem_kstar {l : Language Char} {s t : List Char} (hs : s ∈ l) (ht : t ∈ l∗) :
    s ++ t ∈ l∗ := by
  obtain ⟨words, rfl, hwords⟩ := ht
  exact ⟨s :: words, rfl, List.forall_mem_cons.mpr ⟨hs, hwords⟩⟩

/-! ## What is read belongs to its language -/

/-- The body of a quoted literal is a row of units and perhaps the closing quote. -/
theorem quotedBody_mem (quote : Char) (spansLines : Bool) (s : List Char) :
    (quotedBody quote spansLines s).1 ∈
      (quotedUnit quote spansLines)∗ * (1 + exactly [quote]) := by
  have hcons {unit body : List Char} (hu : unit ∈ quotedUnit quote spansLines)
      (hb : body ∈ (quotedUnit quote spansLines)∗ * (1 + exactly [quote])) :
      unit ++ body ∈ (quotedUnit quote spansLines)∗ * (1 + exactly [quote]) := by
    obtain ⟨units, hunits, last, hlast, rfl⟩ := Language.mem_mul.mp hb
    rw [← List.append_assoc]
    exact Language.append_mem_mul (append_mem_kstar hu hunits) hlast
  have hnil : [] ∈ (quotedUnit quote spansLines)∗ * (1 + exactly [quote]) :=
    Language.append_mem_mul (Language.nil_mem_kstar _) (.inl rfl)
  fun_induction quotedBody quote spansLines s with
  | case1 => exact hnil
  | case2 c s body rest heq ih =>
    have hunit : ['\\', c] ∈ quotedUnit quote spansLines :=
      .inr (Language.append_mem_mul (mem_exactly _) (mem_oneOf trivial))
    rw [heq] at ih
    exact hcons hunit ih
  | case3 s hnot => exact Language.append_mem_mul (Language.nil_mem_kstar _) (.inr rfl)
  | case4 => exact hnil
  | case5 c s hnot hquote hplain body rest heq ih =>
    have hunit : [c] ∈ quotedUnit quote spansLines := by
      refine .inl (mem_oneOf ⟨hquote, fun h => hplain (.inl h), fun h => ?_⟩)
      by_contra hspans
      exact hplain (.inr ⟨h, by simpa using hspans⟩)
    rw [heq] at ih
    exact hcons hunit ih

theorem quoted_mem (quote : Char) (spansLines : Bool) (s : List Char) :
    quote :: (quotedBody quote spansLines s).1 ∈ quotedText quote spansLines :=
  Language.append_mem_mul (mem_exactly _) (quotedBody_mem quote spansLines s)

theorem fraction_mem (s : List Char) :
    (fraction s).1 ∈ 1 + exactly ['.'] * digits := by
  fun_cases fraction s with
  | case1 d s hd => exact .inr (Language.append_mem_mul (mem_exactly _) (cons_mem_oneOf_mul hd s))
  | case2 | case3 => exact .inl rfl

/-- A token belongs to the language of its kind. -/
theorem text_mem_language {p : Profile} {c : Char} {s : List Char} {k : TokenKind}
    (h : (read p c s).kind = .token k) : (read p c s).text ∈ k.language p := by
  have hreads := reads p c s
  generalize read p c s = lexeme at h hreads
  cases hreads with
  | blank | lineComment | blockComment => cases h
  | @string _ _ hquote =>
    cases h
    rcases hquote with rfl | rfl
    · exact .inl (quoted_mem '"' false s)
    · exact .inr (quoted_mem '\'' false s)
  | template =>
    cases h
    exact quoted_mem '`' true s
  | number hdigit =>
    cases h
    exact Language.append_mem_mul (cons_mem_oneOf_mul hdigit s) (fraction_mem _)
  | symbol hsymbol =>
    cases h
    exact mem_oneOf hsymbol
  | identifier hstart =>
    cases h
    exact cons_mem_oneOf_mul hstart s
  | unknown =>
    cases h
    exact mem_oneOf trivial

/-- No identifier character stands right after an identifier. -/
theorem stops_of_identifier {p : Profile} {c : Char} {s : List Char}
    (h : (read p c s).kind = .token .identifier) :
    ∀ d ∈ (read p c s).rest.head?, p.continuesIdentifier d = false := by
  have hreads := reads p c s
  generalize read p c s = lexeme at h hreads
  cases hreads with
  | identifier hstart =>
    intro d hd
    have hstop := List.head?_dropWhile_not p.continuesIdentifier s
    rwa [show (s.dropWhile p.continuesIdentifier).head? = some d from hd] at hstop
  | _ => cases h

/-! ## What starts with an unclaimed character -/

theorem exists_cons_of_mem_oneOf_mul {holds : Char → Prop} {l : Language Char} {w : List Char}
    (h : w ∈ oneOf holds * l) : ∃ c s, holds c ∧ w = c :: s := by
  obtain ⟨_, ⟨c, hc, rfl⟩, s, -, rfl⟩ := Language.mem_mul.mp h
  exact ⟨c, s, hc, rfl⟩

theorem exists_cons_of_mem_quotedText {quote : Char} {spansLines : Bool} {w : List Char}
    (h : w ∈ quotedText quote spansLines) : ∃ s, w = quote :: s := by
  obtain ⟨_, rfl, s, -, rfl⟩ := Language.mem_mul.mp h
  exact ⟨s, rfl⟩

/-- Where an unclaimed character stands, no token of another kind starts. -/
theorem eq_unknown_of_mem_language {p : Profile} {c : Char} {s w : List Char} {k : TokenKind}
    (h : Unclaimed p c s) (hw : w <+: c :: s) (hk : w ∈ k.language p) :
    k = .unknown ∨ k = .eof := by
  have hhead {d : Char} {w' : List Char} (heq : w = d :: w') : d = c :=
    (List.cons_prefix_cons.mp (heq ▸ hw)).1
  cases k with
  | unknown => exact .inl rfl
  | eof => exact .inr rfl
  | identifier =>
    obtain ⟨d, w', hd, heq⟩ := exists_cons_of_mem_oneOf_mul hk
    rw [hhead heq, h.identifier] at hd
    cases hd
  | number =>
    rw [TokenKind.language, digits, mul_assoc] at hk
    obtain ⟨d, w', hd, heq⟩ := exists_cons_of_mem_oneOf_mul hk
    rw [hhead heq, h.digit] at hd
    cases hd
  | symbol =>
    obtain ⟨d, hd, heq⟩ := hk
    exact absurd (hhead heq ▸ hd) h.symbol
  | template =>
    obtain ⟨w', heq⟩ := exists_cons_of_mem_quotedText hk
    exact absurd (hhead heq) fun hc => h.quote (by simp [← hc])
  | string =>
    rcases hk with hk | hk <;> obtain ⟨w', heq⟩ := exists_cons_of_mem_quotedText hk
    · exact absurd (hhead heq) fun hc => h.quote (by simp [← hc])
    · exact absurd (hhead heq) fun hc => h.quote (by simp [← hc])

/-- An unknown token is read only where no blank, comment or other token starts. -/
theorem unclaimed_of_read {p : Profile} {c : Char} {s : List Char}
    (h : (read p c s).kind = .token .unknown) : Unclaimed p c s := by
  have hreads := reads p c s
  generalize read p c s = lexeme at h hreads
  cases hreads with
  | unknown hc => exact hc
  | _ => cases h

end Lexeme

end UiMarkup
