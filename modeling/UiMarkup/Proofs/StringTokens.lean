import Mathlib.Data.List.DropRight
import UiMarkup.Proofs.Parsing
import UiMarkup.Proofs.Partition

/-!
# String tokens

A string is written as a row of units between two quotes. The lexer takes in units up to a quote, a
line end or the end of the text, and the decoder goes through the units once more: both agree on
whether the string is closed.

* `StringUnit quote`: a character of a string between two of the given quotes.
* `exists_stringUnits`: a string token is a quote, units, and perhaps the quote again.
* `decodeBody?_flatMap_text`: units are decoded one by one.
* `exists_units_iff_endsInEscape`: whether the last quote is escaped can be told from the number of
  backslashes before it.
* `string_tokens_decode_by_units`: all this for the string tokens of a source.
-/

open scoped Computability

namespace UiMarkup

/-- A character of a string as it is written between two quotes: one that stands for itself, or one
behind a backslash. -/
inductive StringUnit (quote : Char) where
  | plain (c : Char) (h : c ≠ quote ∧ c ≠ '\\' ∧ c ≠ '\n')
  | escape (c : Char)

namespace StringUnit

variable {quote : Char}

/-- How the character is written. -/
def text : StringUnit quote → List Char
  | plain c _ => [c]
  | escape c => ['\\', c]

/-- The character that is meant. Behind a backslash, three letters mean control characters. -/
def value : StringUnit quote → Char
  | plain c _ => c
  | escape c => if c = 'n' then '\n' else if c = 't' then '\t' else if c = 'r' then '\r' else c

/-- The units between two quotes. -/
def closed (units : List (StringUnit quote)) : List Char :=
  quote :: (units.flatMap text ++ [quote])

/-! ## What the lexer takes in -/

theorem exists_of_mem_quotedUnit {w : List Char} (h : w ∈ Lexeme.quotedUnit quote false) :
    ∃ u : StringUnit quote, w = u.text := by
  rcases h with ⟨c, ⟨hq, hb, hn⟩, rfl⟩ | h
  · exact ⟨plain c ⟨hq, hb, fun hc => nomatch hn hc⟩, rfl⟩
  · obtain ⟨_, rfl, _, ⟨c, -, rfl⟩, rfl⟩ := Language.mem_mul.mp h
    exact ⟨escape c, rfl⟩

theorem exists_of_mem_kstar {w : List Char} (h : w ∈ (Lexeme.quotedUnit quote false)∗) :
    ∃ units : List (StringUnit quote), w = units.flatMap text := by
  obtain ⟨words, rfl, hwords⟩ := h
  induction words with
  | nil => exact ⟨[], rfl⟩
  | cons w words ih =>
    obtain ⟨hw, hrest⟩ := List.forall_mem_cons.mp hwords
    obtain ⟨u, rfl⟩ := exists_of_mem_quotedUnit hw
    obtain ⟨units, hunits⟩ := ih hrest
    exact ⟨u :: units, by rw [List.flatten_cons, hunits, List.flatMap_cons]⟩

/-- A text between quotes, or one that is not closed, is a row of units. -/
theorem exists_of_mem_quotedText {w : List Char} (h : w ∈ Lexeme.quotedText quote false) :
    ∃ units : List (StringUnit quote), w = quote :: units.flatMap text ∨ w = closed units := by
  obtain ⟨_, rfl, _, hbody, rfl⟩ := Language.mem_mul.mp h
  obtain ⟨_, hunits, last, hlast, rfl⟩ := Language.mem_mul.mp hbody
  obtain ⟨units, rfl⟩ := exists_of_mem_kstar hunits
  rcases hlast with rfl | rfl
  · exact ⟨units, .inl (by simp)⟩
  · exact ⟨units, .inr rfl⟩

/-- A line end in a row of units, if there is none in what closes the row, stands behind the
backslash of a unit. -/
theorem exists_of_newline (units : List (StringUnit quote)) {closing before after : List Char}
    (hclosing : '\n' ∉ closing)
    (h : units.flatMap text ++ closing = before ++ '\n' :: after) :
    ∃ units' : List (StringUnit quote), before = units'.flatMap text ++ ['\\'] := by
  induction units generalizing before with
  | nil =>
    rw [List.flatMap_nil, List.nil_append] at h
    exact absurd (by simp [h]) hclosing
  | cons u units ih =>
    rw [List.flatMap_cons, List.append_assoc] at h
    cases u with
    | plain c hc =>
      cases before with
      | nil => exact absurd (List.cons.inj h).1 hc.2.2
      | cons d before =>
        obtain ⟨rfl, hrest⟩ := List.cons.inj h
        obtain ⟨units', rfl⟩ := ih hrest
        exact ⟨plain c hc :: units', rfl⟩
    | escape c =>
      cases before with
      | nil => exact absurd (List.cons.inj h).1 (by decide)
      | cons d before =>
        obtain ⟨rfl, hbehind⟩ := List.cons.inj h
        cases before with
        | nil => exact ⟨[], rfl⟩
        | cons d before =>
          obtain ⟨rfl, hrest⟩ := List.cons.inj hbehind
          obtain ⟨units', rfl⟩ := ih hrest
          exact ⟨escape c :: units', rfl⟩

/-- A line end in a string, closed or not, stands behind the backslash of a unit. -/
theorem exists_units_before_newline (hquote : quote ≠ '\n') {units : List (StringUnit quote)}
    {s before after : List Char} (hs : s = quote :: units.flatMap text ∨ s = closed units)
    (h : s = before ++ '\n' :: after) :
    ∃ units' : List (StringUnit quote), before = quote :: (units'.flatMap text ++ ['\\']) := by
  obtain ⟨closing, hclosing, rfl⟩ : ∃ closing, '\n' ∉ closing ∧
      s = quote :: (units.flatMap text ++ closing) := by
    rcases hs with hs | hs
    · exact ⟨[], by simp, by rw [hs, List.append_nil]⟩
    · exact ⟨[quote], by simpa using hquote.symm, hs⟩
  cases before with
  | nil => exact absurd (List.cons.inj h).1 hquote
  | cons c before =>
    obtain ⟨rfl, hrest⟩ := List.cons.inj h
    obtain ⟨units', rfl⟩ := exists_of_newline units hclosing hrest
    exact ⟨units', rfl⟩

/-! ## What the decoder makes of it -/

theorem unescape_eq_value (c : Char) :
    Literal.unescape c = (escape c : StringUnit quote).value := by
  unfold Literal.unescape value
  split <;> simp_all

/-- A unit stands for one character. -/
theorem decodeBody?_text (u : StringUnit quote) (s : List Char) :
    Literal.decodeBody? quote (u.text ++ s) =
      (Literal.decodeBody? quote s).map (u.value :: ·) := by
  cases u with
  | escape c =>
    rw [← unescape_eq_value]
    rfl
  | plain c hc =>
    cases s with
    | nil => simp [text, Literal.decodeBody?, hc.1]
    | cons d s =>
      rw [text, List.singleton_append, Literal.decodeBody?]
      · rfl
      · simp
      · simp [hc.2.1]

/-- Units are decoded one by one. -/
theorem decodeBody?_flatMap_text (units : List (StringUnit quote)) (s : List Char) :
    Literal.decodeBody? quote (units.flatMap text ++ s) =
      (Literal.decodeBody? quote s).map (units.map value ++ ·) := by
  induction units with
  | nil => simp
  | cons u units ih =>
    rw [List.flatMap_cons, List.append_assoc, decodeBody?_text, ih, Option.map_map]
    rfl

/-- Units without a quote after them are not closed. -/
theorem decodeString?_eq_none {t : String} {units : List (StringUnit quote)}
    (h : t.toList = quote :: units.flatMap text) : Literal.decodeString? t = none := by
  have hbody := decodeBody?_flatMap_text units []
  rw [List.append_nil] at hbody
  simp only [Literal.decodeString?, h, hbody, Literal.decodeBody?, Option.map_none]

/-- The value of units between two quotes. -/
theorem decodeString?_closed {t : String} {units : List (StringUnit quote)}
    (h : t.toList = closed units) :
    Literal.decodeString? t = some (String.ofList (units.map value)) := by
  have hquote : Literal.decodeBody? quote [quote] = some [] := if_pos rfl
  simp only [Literal.decodeString?, h, closed, decodeBody?_flatMap_text, hquote, Option.map_some,
    List.append_nil]

/-- Of a quote, units and perhaps the quote again, the last quote decides. -/
theorem decodeString?_eq_none_iff {t : String} {units : List (StringUnit quote)}
    (h : t.toList = quote :: units.flatMap text ∨ t.toList = closed units) :
    Literal.decodeString? t = none ↔
      ¬ ∃ units : List (StringUnit quote), t.toList = closed units := by
  constructor
  · rintro hnone ⟨units', hclosed⟩
    rw [decodeString?_closed hclosed] at hnone
    cases hnone
  · intro hopen
    rcases h with h | h
    · exact decodeString?_eq_none h
    · exact absurd ⟨units, h⟩ hopen

end StringUnit

/-! ## The backslashes before the last quote -/

/-- The text ends in a backslash that escapes what follows: the backslashes at its end do not pair
up. -/
def endsInEscape (body : List Char) : Bool :=
  (body.rtakeWhile (· == '\\')).length % 2 == 1

/-- One character more is taken from the end only if everything after it is. -/
theorem rtakeWhile_cons (f : Char → Bool) (c : Char) (s : List Char) :
    (c :: s).rtakeWhile f = if s.all f && f c then c :: s else s.rtakeWhile f := by
  induction s using List.reverseRecOn with
  | nil => simpa using List.rtakeWhile_concat f [] c
  | append_singleton s d ih =>
    have hall : ((s ++ [d]).all f && f c) = (f d && (s.all f && f c)) := by
      rw [List.all_append, List.all_cons, List.all_nil, Bool.and_true, Bool.and_comm (s.all f),
        Bool.and_assoc]
    rw [← List.cons_append, List.rtakeWhile_concat, List.rtakeWhile_concat, ih, hall]
    cases hd : f d with
    | false => simp
    | true =>
      rw [Bool.true_and, if_pos rfl, if_pos rfl]
      split <;> rfl

theorem endsInEscape_plain {c : Char} (hc : c ≠ '\\') (s : List Char) :
    endsInEscape (c :: s) = endsInEscape s := by
  have hfalse : (c == '\\') = false := beq_false_of_ne hc
  rw [endsInEscape, rtakeWhile_cons, hfalse, Bool.and_false, if_neg (by decide), endsInEscape]

/-- A backslash and the character behind it do not change whether the backslashes at the end pair
up. -/
theorem endsInEscape_escape (c : Char) (s : List Char) :
    endsInEscape ('\\' :: c :: s) = endsInEscape s := by
  by_cases hc : c = '\\'
  · subst hc
    rw [endsInEscape, rtakeWhile_cons, rtakeWhile_cons, endsInEscape]
    by_cases hs : s.all (· == '\\')
    · rw [List.rtakeWhile_eq_self_iff.mpr (List.all_eq_true.mp hs)]
      simp [hs, Nat.add_assoc]
    · simp [hs]
  · have hfalse : (c == '\\') = false := beq_false_of_ne hc
    rw [endsInEscape, rtakeWhile_cons, List.all_cons, hfalse, Bool.false_and, Bool.false_and,
      if_neg (by decide), ← endsInEscape, endsInEscape_plain hc]

/-- A text is a row of characters and escapes unless its last backslash escapes what follows. -/
theorem exists_units_iff_endsInEscape (body : List Char) :
    (∃ v, Grammar.Units body v) ↔ endsInEscape body = false := by
  match body with
  | [] => exact ⟨fun _ => rfl, fun _ => ⟨[], .nil⟩⟩
  | c :: s =>
    by_cases hc : c = '\\'
    · subst hc
      match s with
      | [] =>
        refine ⟨fun ⟨v, h⟩ => ?_, fun h => absurd h (by decide)⟩
        cases h with
        | plain hc _ => exact absurd rfl hc
      | d :: s =>
        rw [endsInEscape_escape, ← exists_units_iff_endsInEscape s]
        refine ⟨fun ⟨v, h⟩ => ?_, fun ⟨v, h⟩ => ⟨_, .escape h⟩⟩
        cases h with
        | plain hc _ => exact absurd rfl hc
        | escape h => exact ⟨_, h⟩
    · rw [endsInEscape_plain hc, ← exists_units_iff_endsInEscape s]
      refine ⟨fun ⟨v, h⟩ => ?_, fun ⟨v, h⟩ => ⟨_, .plain hc h⟩⟩
      cases h with
      | plain _ h => exact ⟨_, h⟩
      | escape _ => exact absurd rfl hc

/-- A text that starts with a quote has a value if the quote ends it and is not escaped there. -/
theorem decodeString?_eq_none_iff_endsInEscape {t : String} {quote : Char}
    (h : t.toList.head? = some quote) :
    Literal.decodeString? t = none ↔
      ¬ ∃ body, t.toList = quote :: (body ++ [quote]) ∧ endsInEscape body = false := by
  rw [Option.eq_none_iff_forall_ne_some, ← not_exists, not_iff_not]
  constructor
  · rintro ⟨v, hv⟩
    obtain ⟨quote', body, heq, hunits⟩ := Parser.decodeString?_eq_some.mp hv
    rw [heq] at h
    cases h
    exact ⟨body, heq, (exists_units_iff_endsInEscape body).mp ⟨_, hunits⟩⟩
  · rintro ⟨body, heq, hbody⟩
    obtain ⟨v, hunits⟩ := (exists_units_iff_endsInEscape body).mpr hbody
    refine ⟨String.ofList v, Parser.decodeString?_eq_some.mpr ⟨quote, body, heq, ?_⟩⟩
    rwa [String.toList_ofList]

/-! ## The string tokens of a source -/

/-- A string token is a quote, units, and perhaps the quote again. -/
theorem exists_stringUnits {p : Profile} {source : String} {t : Token} (ht : t ∈ tokenize p source)
    (hk : t.kind = .string) :
    ∃ quote, (quote = '"' ∨ quote = '\'') ∧ ∃ units : List (StringUnit quote),
      t.text.toList = quote :: units.flatMap StringUnit.text ∨
        t.text.toList = StringUnit.closed units := by
  obtain ⟨-, -, hmem⟩ := Token.formed_of_mem ht (by rw [hk]; decide)
  rw [hk] at hmem
  rcases hmem with hmem | hmem
  · exact ⟨'"', .inl rfl, StringUnit.exists_of_mem_quotedText hmem⟩
  · exact ⟨'\'', .inr rfl, StringUnit.exists_of_mem_quotedText hmem⟩

/-- An argument that is a string token cannot be read if the token has no value. -/
theorem argument_eq_unterminated_iff {p : Profile} {t : Token} (hk : t.kind = .string)
    (rest : List Token) :
    Parser.argument p (t :: rest) =
        .error (.failure ⟨.unterminatedString, t.position, rest⟩) ↔
      Literal.decodeString? t.text = none := by
  cases hv : Literal.decodeString? t.text <;> simp [Parser.argument, Parser.negated?_eq_none, hk, hv]

/-- **String tokens are decoded by units.** A string token starts with a quote. As an argument it is
unterminated exactly if it is not a row of units between two such quotes, which the last quote and
the backslashes before it tell as well. Otherwise its value is that of the units. A line end in the
token, closed or not, stands behind the backslash of a unit. -/
theorem string_tokens_decode_by_units (p : Profile) (source : String) (t : Token)
    (ht : t ∈ tokenize p source) (hk : t.kind = .string) :
    ∃ quote, (quote = '"' ∨ quote = '\'') ∧ t.text.toList.head? = some quote ∧
      (Literal.decodeString? t.text = none ↔
        ¬ ∃ units : List (StringUnit quote), t.text.toList = StringUnit.closed units) ∧
      (Literal.decodeString? t.text = none ↔
        ¬ ∃ body, t.text.toList = quote :: (body ++ [quote]) ∧ endsInEscape body = false) ∧
      (∀ rest, Parser.argument p (t :: rest) =
          .error (.failure ⟨.unterminatedString, t.position, rest⟩) ↔
        Literal.decodeString? t.text = none) ∧
      Cause.unterminatedString.message = "Unterminated string literal" ∧
      (∀ units : List (StringUnit quote), t.text.toList = StringUnit.closed units →
        Literal.decodeString? t.text = some (String.ofList (units.map StringUnit.value))) ∧
      ∀ before after, t.text.toList = before ++ '\n' :: after →
        ∃ units : List (StringUnit quote),
          before = quote :: (units.flatMap StringUnit.text ++ ['\\']) := by
  obtain ⟨quote, hquote, units, hunits⟩ := exists_stringUnits ht hk
  have hhead : t.text.toList.head? = some quote := by
    rcases hunits with h | h <;> rw [h] <;> rfl
  have hnewline : quote ≠ '\n' := by rcases hquote with rfl | rfl <;> decide
  refine ⟨quote, hquote, hhead, StringUnit.decodeString?_eq_none_iff hunits,
    decodeString?_eq_none_iff_endsInEscape hhead, argument_eq_unterminated_iff hk, rfl,
    fun units => StringUnit.decodeString?_closed, fun before after heq => ?_⟩
  exact StringUnit.exists_units_before_newline hnewline hunits heq

/-- A string with an escaped line end and two backslashes before its last quote, and one whose last
quote is escaped. -/
theorem string_tokens_decode_by_units_escapes :
    let source := "Text(\"a\\\nb\\\\\", 'c\\'"
    let first : Token := ⟨.string, "\"a\\\nb\\\\\"", 5⟩
    let last : Token := ⟨.string, "'c\\'", 15⟩
    first ∈ tokenize .plain source ∧ last ∈ tokenize .plain source ∧
      Literal.decodeString? first.text = some "a\nb\\" ∧
      Literal.decodeString? last.text = none := by
  intro source first last
  have hfirst : first ∈ tokenize .plain source := by decide +kernel
  have hlast : last ∈ tokenize .plain source := by decide +kernel
  have hfirstText : first.text.toList = ['"', 'a', '\\', '\n', 'b', '\\', '\\', '"'] := by
    decide +kernel
  have hlastText : last.text.toList = ['\'', 'c', '\\', '\''] := by decide +kernel
  refine ⟨hfirst, hlast, ?_, ?_⟩
  · obtain ⟨quote, -, hquote, -, -, -, -, hvalue, -⟩ :=
      string_tokens_decode_by_units .plain source first hfirst rfl
    rw [hfirstText] at hquote hvalue
    obtain rfl := Option.some.inj hquote
    exact hvalue [.plain 'a' (by decide), .escape '\n', .plain 'b' (by decide), .escape '\\'] rfl
  · obtain ⟨quote, -, hquote, -, hparity, -⟩ :=
      string_tokens_decode_by_units .plain source last hlast rfl
    rw [hlastText] at hquote hparity
    obtain rfl := Option.some.inj hquote
    rw [hparity]
    rintro ⟨body, heq, hbody⟩
    obtain rfl : ['c', '\\'] = body := List.append_cancel_right (List.cons.inj heq).2
    exact absurd hbody (by decide)

end UiMarkup
