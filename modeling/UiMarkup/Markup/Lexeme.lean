import UiMarkup.Markup.Profile
import UiMarkup.Markup.Token
import UiMarkup.Text.Blank
import UiMarkup.Text.Digit

/-!
# Lexemes

The source text is a row of lexemes: tokens, blanks and comments. `Lexeme.read` takes the first
lexeme off a nonempty text. A string that is not closed ends with its line, and a template or block
comment that is not closed ends with the text, so every text can be read.

Main statements: `text_append_rest` says that a lexeme and what follows it make up the text, and
`length_rest_lt` that what follows is shorter.
-/

namespace UiMarkup

/-- What a lexeme is: something between tokens, or a token of some kind. -/
inductive LexemeKind where
  | blank
  | comment
  | token (kind : TokenKind)
  deriving Repr, DecidableEq

/-- The first lexeme of a text and the rest of the text. -/
structure Lexeme where
  kind : LexemeKind
  text : List Char
  rest : List Char
  deriving Repr, DecidableEq

namespace Lexeme

/-- The body of a quoted literal up to and including its closing quote. A backslash takes the next
character with it. Unless the literal may span lines, an unescaped line end closes it without being
part of it; a lone backslash at the end of the text is not part of it either. -/
def quotedBody (quote : Char) (spansLines : Bool) : List Char → List Char × List Char
  | [] => ([], [])
  | '\\' :: c :: s =>
    let (body, rest) := quotedBody quote spansLines s
    ('\\' :: c :: body, rest)
  | c :: s =>
    if c = quote then ([c], s)
    else if c = '\\' ∨ (c = '\n' ∧ spansLines = false) then ([], c :: s)
    else
      let (body, rest) := quotedBody quote spansLines s
      (c :: body, rest)

/-- The body of a block comment up to and including the closing `*/`. -/
def blockCommentBody : List Char → List Char × List Char
  | [] => ([], [])
  | '*' :: '/' :: s => (['*', '/'], s)
  | c :: s =>
    let (body, rest) := blockCommentBody s
    (c :: body, rest)

/-- The fraction after the digits of a number: a point that is followed by a digit, and digits. -/
def fraction : List Char → List Char × List Char
  | '.' :: d :: s =>
    if Text.isDigit d then ('.' :: d :: s.takeWhile Text.isDigit, s.dropWhile Text.isDigit)
    else ([], '.' :: d :: s)
  | s => ([], s)

/-- The characters that are symbols by themselves. -/
def symbols : List Char := ['(', ')', '{', '}', '.', ',']

/-- A lexeme that starts with `c` and goes on as long as `p` holds. -/
def run (kind : LexemeKind) (p : Char → Bool) (c : Char) (s : List Char) : Lexeme :=
  ⟨kind, c :: s.takeWhile p, s.dropWhile p⟩

/-- A lexeme of `opening` followed by a body. -/
def enclosed (kind : LexemeKind) (opening : List Char) (body : List Char × List Char) : Lexeme :=
  ⟨kind, opening ++ body.1, body.2⟩

/-- A number: digits and an optional fraction. -/
def number (c : Char) (s : List Char) : Lexeme :=
  let (tail, rest) := fraction (s.dropWhile Text.isDigit)
  ⟨.token .number, c :: s.takeWhile Text.isDigit ++ tail, rest⟩

/-- A lexeme that starts with a slash: a comment, or the slash alone. -/
def slash : List Char → Lexeme
  | '/' :: s => ⟨.comment, '/' :: '/' :: s.takeWhile (· != '\n'), s.dropWhile (· != '\n')⟩
  | '*' :: s => enclosed .comment ['/', '*'] (blockCommentBody s)
  | s => ⟨.token .unknown, ['/'], s⟩

/-- The first lexeme of the text `c :: s`. -/
def read (p : Profile) (c : Char) (s : List Char) : Lexeme :=
  if Text.isBlank c then run .blank Text.isBlank c s
  else if c = '/' then slash s
  else if c = '"' ∨ c = '\'' then enclosed (.token .string) [c] (quotedBody c false s)
  else if c = '`' then enclosed (.token .template) [c] (quotedBody c true s)
  else if Text.isDigit c then number c s
  else if c ∈ symbols then ⟨.token .symbol, [c], s⟩
  else if p.startsIdentifier c then run (.token .identifier) p.continuesIdentifier c s
  else ⟨.token .unknown, [c], s⟩

theorem quotedBody_append (quote : Char) (spansLines : Bool) (s : List Char) :
    (quotedBody quote spansLines s).1 ++ (quotedBody quote spansLines s).2 = s := by
  fun_induction quotedBody quote spansLines s <;> simp_all

theorem blockCommentBody_append (s : List Char) :
    (blockCommentBody s).1 ++ (blockCommentBody s).2 = s := by
  fun_induction blockCommentBody s <;> simp_all

theorem fraction_append (s : List Char) : (fraction s).1 ++ (fraction s).2 = s := by
  fun_cases fraction s <;> simp

theorem enclosed_append (kind : LexemeKind) (opening : List Char) {body : List Char × List Char}
    {s : List Char} (h : body.1 ++ body.2 = s) :
    (enclosed kind opening body).text ++ (enclosed kind opening body).rest = opening ++ s := by
  simp [enclosed, h]

theorem slash_append (s : List Char) : (slash s).text ++ (slash s).rest = '/' :: s := by
  fun_cases slash s with
  | case1 s => simp
  | case2 s => simpa using enclosed_append .comment ['/', '*'] (blockCommentBody_append s)
  | case3 s => simp

theorem number_append (c : Char) (s : List Char) :
    (number c s).text ++ (number c s).rest = c :: s := by
  simp [number, fraction_append]

/-- A lexeme and what follows it make up the text. -/
theorem text_append_rest (p : Profile) (c : Char) (s : List Char) :
    (read p c s).text ++ (read p c s).rest = c :: s := by
  unfold read
  split
  · simp [run]
  split
  · next h => rw [h, slash_append]
  split
  · exact enclosed_append _ [c] (quotedBody_append c false s)
  split
  · exact enclosed_append _ [c] (quotedBody_append c true s)
  split
  · exact number_append c s
  split
  · simp
  split <;> simp [run]

/-- A lexeme is not empty. -/
theorem text_ne_nil (p : Profile) (c : Char) (s : List Char) : (read p c s).text ≠ [] := by
  unfold read run enclosed number
  repeat' split
  all_goals simp
  fun_cases slash s <;> simp [enclosed]

/-- What follows a lexeme is shorter than the text. -/
theorem length_rest_lt (p : Profile) (c : Char) (s : List Char) :
    (read p c s).rest.length < (c :: s).length := by
  rw [← text_append_rest p c s, List.length_append]
  have := List.length_pos_iff.mpr (text_ne_nil p c s)
  omega

end Lexeme

/-- The tokens of a text that starts at the given offset, with the end token. -/
def tokensFrom (p : Profile) (position : Nat) : List Char → List Token
  | [] => [.endOfText position]
  | c :: s =>
    let lexeme := Lexeme.read p c s
    let tail := tokensFrom p (position + lexeme.text.length) lexeme.rest
    match lexeme.kind with
    | .token kind => ⟨kind, String.ofList lexeme.text, position⟩ :: tail
    | _ => tail
termination_by s => s.length
decreasing_by exact Lexeme.length_rest_lt p c s

/-- The tokens of a source text under a profile. -/
def tokenize (p : Profile) (source : String) : List Token :=
  tokensFrom p 0 source.toList

end UiMarkup
