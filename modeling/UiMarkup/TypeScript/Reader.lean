import UiMarkup.Text.Offset
import UiMarkup.TypeScript.Scan
import UiMarkup.TypeScript.Tree

/-!
# Reading trees

A reader takes part of a text and gives what it read, or fails. Productions of the grammar are rows
of readers (`row`) and choices among them (`oneOf`); each gives the nodes that it read, and `node`
puts them under a node of their own. Blanks and comments may stand before every token; the comments
become nodes at that place.
-/

namespace UiMarkup.TypeScript

/-- A position in a text. -/
structure Position where
  rest : List Char
  /-- The bytes before the position. -/
  offset : Nat
  /-- The bytes before the end of the last token. -/
  last : Nat
  /-- The bytes of the whole text. -/
  limit : Nat
  /-- A line ended since the last token. -/
  newLine : Bool

namespace Position

/-- The start of a text. -/
def ofText (s : List Char) : Position :=
  ⟨s, 0, 0, Text.byteLength s, false⟩

/-- The position after a token. -/
def past (p : Position) (token rest : List Char) : Position :=
  let stop := p.offset + Text.byteLength token
  { p with rest, offset := stop, last := stop, newLine := false }

/-- The position after a blank or a comment. -/
def pastTrivia (p : Position) (text rest : List Char) : Position :=
  { p with
    rest
    offset := p.offset + Text.byteLength text
    newLine := p.newLine || text.any isLineEnd }

/-- Skips blanks and comments; gives the comments. -/
def skip : (fuel : Nat) → Position → List Tree × Position
  | 0, p => ([], p)
  | fuel + 1, p =>
    match p.rest with
    | [] => ([], p)
    | c :: s =>
      if isSpace c then skip fuel (p.pastTrivia [c] s)
      else
        match Scan.comment p.rest with
        | none => ([], p)
        | some (text, s) =>
          let next := p.pastTrivia text s
          let (comments, stop) := skip fuel next
          (.node none .comment ⟨p.offset, next.offset⟩ [] :: comments, stop)

/-- The bytes after the position. -/
def left (p : Position) : Nat :=
  p.limit - p.offset

/-- The position of the next token. -/
def ahead (p : Position) : Position :=
  (skip p.left p).2

end Position

/-- A reader of part of a text. -/
abbrev Reader := StateT Position Option

namespace Reader

/-- The blanks and comments before the next token. -/
def lead : Reader (List Tree) := fun p =>
  some (p.skip p.left)

/-- A token that starts right here. -/
def token (kind : Kind) (scan : Scan) : Reader Tree := fun p =>
  match scan p.rest with
  | none => none
  | some (text, rest) =>
    let next := p.past text rest
    some (.node none kind ⟨p.offset, next.offset⟩ [], next)

/-- The next node, after blanks and comments. -/
def next (r : Reader Tree) : Reader (List Tree) := do
  let comments ← lead
  let t ← r
  return comments ++ [t]

/-- The next node, in a role. -/
def nextAs (role : Role) (r : Reader Tree) : Reader (List Tree) :=
  next (do return (← r).withRole role)

/-- The next token, which is an operator or a punctuation mark. -/
def mark (op : String) : Reader (List Tree) :=
  next (token .mark (Scan.operator op))

/-- The next token, which is one of the operators. -/
def markIn (ops : List String) : Reader (List Tree) :=
  next (token .mark fun s =>
    match Scan.operator? s with
    | some op => if ops.contains op then Scan.exactly op.toList s else none
    | none => none)

/-- The next token, which is a word. -/
def word (w : String) : Reader (List Tree) :=
  next (token .mark (Scan.word w))

/-- The next token, which is one character even if a longer operator starts with it. -/
def single (c : Char) : Reader (List Tree) :=
  next (token .mark (Scan.exactly [c]))

/-- Readers one after another. -/
def row : List (Reader (List Tree)) → Reader (List Tree)
  | [] => pure []
  | r :: rs => do
    let ts ← r
    let us ← row rs
    return ts ++ us

/-- The first reader that succeeds. -/
def oneOf : List (Reader α) → Reader α
  | [] => failure
  | r :: rs => r <|> oneOf rs

/-- The reader, or nothing. -/
def maybe (r : Reader (List Tree)) : Reader (List Tree) :=
  r <|> pure []

/-- The reader as often as it succeeds and goes ahead. -/
def manyFrom (r : Reader (List Tree)) : (fuel : Nat) → Reader (List Tree)
  | 0 => pure []
  | fuel + 1 => fun p =>
    match r p with
    | none => some ([], p)
    | some (ts, next) =>
      if p.offset < next.offset then
        (manyFrom r fuel next).map fun (us, stop) => (ts ++ us, stop)
      else some ([], p)

/-- The reader as often as it succeeds and goes ahead. -/
def many (r : Reader (List Tree)) : Reader (List Tree) := fun p =>
  manyFrom r (p.left + 1) p

/-- Builds on a node as often as the reader succeeds and goes ahead. -/
def growFrom (r : Tree → Reader Tree) : (fuel : Nat) → Tree → Reader Tree
  | 0, t => pure t
  | fuel + 1, t => fun p =>
    match r t p with
    | none => some (t, p)
    | some (t', next) => if p.offset < next.offset then growFrom r fuel t' next else some (t, p)

/-- Builds on a node as often as the reader succeeds and goes ahead. -/
def grow (r : Tree → Reader Tree) (t : Tree) : Reader Tree := fun p =>
  growFrom r (p.left + 1) t p

/-- One or more, with commas between them and perhaps one at the end. -/
def commaList (r : Reader (List Tree)) : Reader (List Tree) :=
  row [r, many (row [mark ",", r]), maybe (mark ",")]

/-- Any number, with commas between them; places between commas may be empty. -/
def sparseList (r : Reader (List Tree)) : Reader (List Tree) :=
  row [maybe r, many (row [mark ",", maybe r])]

/-- A node over what the reader reads. It starts right here. -/
def node (kind : Kind) (r : Reader (List Tree)) : Reader Tree := fun p =>
  match r p with
  | none => none
  | some (ts, stop) => some (.node none kind ⟨p.offset, stop.last⟩ ts, stop)

/-- A node over a node that was read and what the reader reads after it. -/
def extend (kind : Kind) (first : Tree) (r : Reader (List Tree)) : Reader Tree := fun p =>
  match r p with
  | none => none
  | some (ts, stop) =>
    some (.node none kind ⟨first.span.start, stop.last⟩ (first :: ts), stop)

/-- Nothing, provided that the next token is on the same line. -/
def sameLine : Reader (List Tree) := fun p =>
  if p.ahead.newLine then none else some ([], p)

/-- Nothing, provided that the text from the next token on satisfies the condition. -/
def provided (holds : List Char → Bool) : Reader (List Tree) := fun p =>
  if holds p.ahead.rest then some ([], p) else none

/-- Nothing, provided that the reader would succeed. -/
def before (r : Reader α) : Reader (List Tree) := fun p =>
  if (r p).isSome then some ([], p) else none

/-- Nothing, provided that the reader would fail. -/
def notAhead (r : Reader α) : Reader (List Tree) := fun p =>
  if (r p).isSome then none else some ([], p)

/-- Nothing, provided that none of the operators comes next. -/
def notBefore (ops : List String) : Reader (List Tree) :=
  provided fun s => !(Scan.operator? s).any ops.contains

/-- The end of a statement: a semicolon, the end of the block or the text, or the end of
the line. -/
def statementEnd : Reader (List Tree) := fun p =>
  match mark ";" p with
  | some found => some found
  | none =>
    let next := p.ahead
    if next.newLine || next.rest.isEmpty || next.rest.head? == some '\x7d' then some ([], p)
    else none

end Reader

end UiMarkup.TypeScript
