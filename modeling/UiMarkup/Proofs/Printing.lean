import UiMarkup.Markup.Forest
import UiMarkup.Proofs.Grammar

/-!
# Printed markup

How a forest is written as markup: first as a row of pieces, the tokens without their offsets, and
then as a text in which blanks and comments stand around the pieces. A string may be written with
either quote, an empty block may be left out, and so may an empty argument list before a block.

* `Component.Formed p c`: the names, arguments and modifiers of `c` can be written under `p`.
* `Prints c ps`: the pieces `ps` are a way to write the component `c`.
* `Laid ps s`: the text `s` is the pieces `ps` with blanks and comments around them.
* `Rendering nodes text`: the text is a way to write the forest.
* `exists_rendering`: a well-formed forest can be written.
-/

namespace UiMarkup

/-! ## Forests that can be written -/

/-- The text is an identifier of the profile. -/
def Profile.isIdentifier (p : Profile) : List Char → Bool
  | [] => false
  | c :: s => p.startsIdentifier c && s.all p.continuesIdentifier

/-- At least one character, and all of them are digits. -/
def Text.isNumeral (s : List Char) : Bool :=
  !s.isEmpty && s.all Text.isDigit

theorem Text.isNumeral_cons (c : Char) (s : List Char) :
    isNumeral (c :: s) ↔ isDigit c ∧ s.all isDigit := by
  simp [isNumeral]

/-- The value of a decimal literal `whole.fraction`. -/
def Decimal.ofLiteral (whole fraction : List Char) : Float :=
  Decimal.ofScaled (Text.ofDigits (whole ++ fraction)) (-fraction.length)

/-- The argument can be written: an integer within the limit on digits, the value of a decimal
literal up to its sign, or a reference, which is dotted in the extended profile only. -/
def Expr.Formed (p : Profile) : Expr → Prop
  | .text _ => True
  | .number (.int n) => (Nat.toDigits 10 n.natAbs).length ≤ Literal.maxIntegerDigits
  | .number (.real x) => ∃ whole fraction, Text.isNumeral whole ∧ Text.isNumeral fraction ∧
      (x = Decimal.ofLiteral whole fraction ∨ x = -Decimal.ofLiteral whole fraction)
  | .reference name => (∀ part ∈ name.toList.splitOn '.', p.isIdentifier part) ∧
      (p = .plain → '.' ∉ name.toList)

/-- The parts of a component apart from those that it contains can be written. -/
structure Component.Formed (p : Profile) (c : Component) : Prop where
  name : p.isIdentifier c.name.toList
  capitalised : c.name.toList.head?.any Char.isUpper
  arguments : ∀ e ∈ c.arguments, e.Formed p
  modifiers : ∀ m ∈ c.modifiers, p.isIdentifier m.name.toList ∧ ∀ e ∈ m.arguments, e.Formed p

/-- The forest can be written: all its components can, and in the plain profile those at top level
are known. -/
structure Profile.WellFormed (p : Profile) (nodes : List Component) : Prop where
  formed : ∀ c ∈ nodes.flatMap Component.preorder, c.Formed p
  known : p = .plain → ∀ c ∈ nodes, c.name ∈ knownComponents

namespace Component

mutual
/-- The component without its place and those of the components in it. -/
def unplaced : Component → Component
  | ⟨name, arguments, components, modifiers, _⟩ =>
    ⟨name, arguments, unplacedAll components, modifiers, .start⟩

/-- Components without their places. -/
def unplacedAll : List Component → List Component
  | [] => []
  | c :: cs => c.unplaced :: unplacedAll cs
end

end Component

/-! ## Pieces -/

/-- A token without its offset. -/
structure Piece where
  kind : TokenKind
  text : List Char
  deriving Repr, DecidableEq

/-- The piece that a token is. -/
def Token.piece (t : Token) : Piece :=
  ⟨t.kind, t.text.toList⟩

namespace Piece

def symbol (c : Char) : Piece := ⟨.symbol, [c]⟩

def identifier (name : List Char) : Piece := ⟨.identifier, name⟩

def number (digits : List Char) : Piece := ⟨.number, digits⟩

def minus : Piece := ⟨.unknown, ['-']⟩

/-- A character between quotes: a backslash, the quote and a line end are escaped. -/
def escaped (quote c : Char) : List Char :=
  if c = '\\' ∨ c = quote then ['\\', c] else if c = '\n' then ['\\', 'n'] else [c]

/-- A text between quotes. -/
def quoted (quote : Char) (s : String) : Piece :=
  ⟨.string, quote :: (s.toList.flatMap (escaped quote) ++ [quote])⟩

end Piece

open Piece

/-- The pieces of an argument. -/
inductive PrintsExpr : Expr → List Piece → Prop where
  | text (s : String) {quote : Char} (h : quote = '"' ∨ quote = '\'') :
      PrintsExpr (.text s) [quoted quote s]
  | natural (n : Nat) : PrintsExpr (.number (.int n)) [number (Nat.toDigits 10 n)]
  | negative (n : Nat) : PrintsExpr (.number (.int (-n))) [minus, number (Nat.toDigits 10 n)]
  | real {whole fraction : List Char} (hw : Text.isNumeral whole) (hf : Text.isNumeral fraction) :
      PrintsExpr (.number (.real (Decimal.ofLiteral whole fraction)))
        [number (whole ++ '.' :: fraction)]
  | negativeReal {whole fraction : List Char} (hw : Text.isNumeral whole)
      (hf : Text.isNumeral fraction) :
      PrintsExpr (.number (.real (-Decimal.ofLiteral whole fraction)))
        [minus, number (whole ++ '.' :: fraction)]
  | reference {name : String} {part : List Char} {parts : List (List Char)}
      (h : name.toList.splitOn '.' = part :: parts) :
      PrintsExpr (.reference name)
        (identifier part :: parts.flatMap fun part => [symbol '.', identifier part])

/-- The pieces of arguments with commas between them. -/
inductive PrintsArguments : List Expr → List Piece → Prop where
  | one {e : Expr} {ps : List Piece} (h : PrintsExpr e ps) : PrintsArguments [e] ps
  | more {e : Expr} {es : List Expr} {ps qs : List Piece} (h : PrintsExpr e ps)
      (hs : PrintsArguments es qs) : PrintsArguments (e :: es) (ps ++ symbol ',' :: qs)

/-- The pieces of arguments between parentheses. -/
inductive PrintsList : List Expr → List Piece → Prop where
  | empty : PrintsList [] [symbol '(', symbol ')']
  | full {es : List Expr} {ps : List Piece} (h : PrintsArguments es ps) :
      PrintsList es (symbol '(' :: (ps ++ [symbol ')']))

/-- The pieces of a modifier chain. -/
inductive PrintsModifiers : List Modifier → List Piece → Prop where
  | nil : PrintsModifiers [] []
  | cons {m : Modifier} {ms : List Modifier} {ps qs : List Piece} (h : PrintsList m.arguments ps)
      (hs : PrintsModifiers ms qs) :
      PrintsModifiers (m :: ms) (symbol '.' :: identifier m.name.toList :: (ps ++ qs))

mutual
/-- The pieces of a component. -/
inductive Prints : Component → List Piece → Prop where
  | call {name : String} {es : List Expr} {cs : List Component} {ms : List Modifier} {place : Place}
      {ps qs rs : List Piece} (ha : PrintsList es ps) (hb : PrintsBlock cs qs)
      (hm : PrintsModifiers ms rs) :
      Prints ⟨name, es, cs, ms, place⟩ (identifier name.toList :: (ps ++ qs ++ rs))
  /-- Without an argument list. -/
  | bare {name : String} {cs : List Component} {ms : List Modifier} {place : Place}
      {qs rs : List Piece} (hb : PrintsAll cs qs) (hm : PrintsModifiers ms rs) :
      Prints ⟨name, [], cs, ms, place⟩
        (identifier name.toList :: (symbol '{' :: (qs ++ [symbol '}']) ++ rs))

/-- The pieces of the components in another one. -/
inductive PrintsBlock : List Component → List Piece → Prop where
  | absent : PrintsBlock [] []
  | present {cs : List Component} {ps : List Piece} (h : PrintsAll cs ps) :
      PrintsBlock cs (symbol '{' :: (ps ++ [symbol '}']))

/-- The pieces of components, one after the other. -/
inductive PrintsAll : List Component → List Piece → Prop where
  | nil : PrintsAll [] []
  | cons {c : Component} {cs : List Component} {ps qs : List Piece} (h : Prints c ps)
      (hs : PrintsAll cs qs) : PrintsAll (c :: cs) (ps ++ qs)
end

/-! ## Layout -/

/-- Blanks and comments. A line comment goes up to the end of its line, and a block comment up to
the first `*/`. -/
inductive Trivia : List Char → Prop where
  | nil : Trivia []
  | blank {c : Char} {s : List Char} (hc : Text.isBlank c) (h : Trivia s) : Trivia (c :: s)
  | line {body s : List Char} (hb : '\n' ∉ body) (h : Trivia s) :
      Trivia ('/' :: '/' :: (body ++ '\n' :: s))
  | block {body s : List Char} (hb : ¬ ['*', '/'] <:+: body) (h : Trivia s) :
      Trivia ('/' :: '*' :: (body ++ '*' :: '/' :: s))

/-- The pieces with blanks and comments before, between and after them. The last comment may lack
its line end. -/
inductive Laid : List Piece → List Char → Prop where
  | nil {s : List Char} (h : Trivia s) : Laid [] s
  | last {s body : List Char} (h : Trivia s) (hb : '\n' ∉ body) : Laid [] (s ++ '/' :: '/' :: body)
  | cons {piece : Piece} {ps : List Piece} {s rest : List Char} (h : Trivia s)
      (hrest : Laid ps rest) : Laid (piece :: ps) (s ++ piece.text ++ rest)

/-- The text is a way to write the forest as markup. -/
def Rendering (nodes : List Component) (text : String) : Prop :=
  ∃ ps, PrintsAll nodes ps ∧ Laid ps text.toList

/-! ## A well-formed forest can be written -/

theorem exists_printsExpr {p : Profile} {e : Expr} (h : e.Formed p) : ∃ ps, PrintsExpr e ps := by
  match e, h with
  | .text s, _ => exact ⟨_, .text s (.inl rfl)⟩
  | .number (.int (.ofNat n)), _ => exact ⟨_, .natural n⟩
  | .number (.int (.negSucc n)), _ => exact ⟨_, .negative (n + 1)⟩
  | .number (.real x), ⟨whole, fraction, hw, hf, hx⟩ =>
    rcases hx with rfl | rfl
    · exact ⟨_, .real hw hf⟩
    · exact ⟨_, .negativeReal hw hf⟩
  | .reference name, _ =>
    obtain ⟨part, parts, heq⟩ := List.exists_cons_of_ne_nil (List.splitOn_ne_nil '.' name.toList)
    exact ⟨_, .reference heq⟩

theorem exists_printsList {p : Profile} {es : List Expr} (h : ∀ e ∈ es, e.Formed p) :
    ∃ ps, PrintsList es ps := by
  have harguments (e : Expr) (es : List Expr) (h : ∀ x ∈ e :: es, x.Formed p) :
      ∃ ps, PrintsArguments (e :: es) ps := by
    induction es generalizing e with
    | nil =>
      obtain ⟨ps, hps⟩ := exists_printsExpr (h e List.mem_cons_self)
      exact ⟨ps, .one hps⟩
    | cons e' es ih =>
      obtain ⟨he, hes⟩ := List.forall_mem_cons.mp h
      obtain ⟨ps, hps⟩ := exists_printsExpr he
      obtain ⟨qs, hqs⟩ := ih e' hes
      exact ⟨_, .more hps hqs⟩
  cases es with
  | nil => exact ⟨_, .empty⟩
  | cons e es =>
    obtain ⟨ps, hps⟩ := harguments e es h
    exact ⟨_, .full hps⟩

theorem exists_printsModifiers {p : Profile} {ms : List Modifier}
    (h : ∀ m ∈ ms, p.isIdentifier m.name.toList ∧ ∀ e ∈ m.arguments, e.Formed p) :
    ∃ ps, PrintsModifiers ms ps := by
  induction ms with
  | nil => exact ⟨_, .nil⟩
  | cons m ms ih =>
    obtain ⟨hm, hms⟩ := List.forall_mem_cons.mp h
    obtain ⟨ps, hps⟩ := exists_printsList hm.2
    obtain ⟨qs, hqs⟩ := ih hms
    exact ⟨_, .cons hps hqs⟩

mutual
theorem exists_prints {p : Profile} : (c : Component) → (∀ d ∈ c.preorder, d.Formed p) →
    ∃ ps, Prints c ps
  | ⟨name, arguments, components, modifiers, place⟩, h => by
    rw [Component.preorder, List.forall_mem_cons] at h
    obtain ⟨ps, hps⟩ := exists_printsList h.1.arguments
    obtain ⟨qs, hqs⟩ := exists_printsAll components h.2
    obtain ⟨rs, hrs⟩ := exists_printsModifiers h.1.modifiers
    exact ⟨_, .call hps (.present hqs) hrs⟩

theorem exists_printsAll {p : Profile} : (cs : List Component) →
    (∀ d ∈ cs.flatMap Component.preorder, d.Formed p) → ∃ ps, PrintsAll cs ps
  | [], _ => ⟨_, .nil⟩
  | c :: cs, h => by
    rw [List.flatMap_cons, List.forall_mem_append] at h
    obtain ⟨ps, hps⟩ := exists_prints c h.1
    obtain ⟨qs, hqs⟩ := exists_printsAll cs h.2
    exact ⟨_, .cons hps hqs⟩
end

/-- A well-formed forest can be written. -/
theorem exists_rendering {p : Profile} {nodes : List Component} (h : p.WellFormed nodes) :
    ∃ text, Rendering nodes text := by
  have hlaid (ps : List Piece) : ∃ s, Laid ps s := by
    induction ps with
    | nil => exact ⟨[], .nil .nil⟩
    | cons piece ps ih =>
      obtain ⟨s, hs⟩ := ih
      exact ⟨_, .cons .nil hs⟩
  obtain ⟨ps, hps⟩ := exists_printsAll nodes h.formed
  obtain ⟨s, hs⟩ := hlaid ps
  exact ⟨String.ofList s, ps, hps, by rwa [String.toList_ofList]⟩

end UiMarkup
