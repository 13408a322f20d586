/-!
# Cursors

A cursor is a position in a YAML text: what remains, the line and the column, and whether only
blanks precede it on its line.
-/

namespace UiMarkup.Yaml

/-- A position in a text. -/
structure Cursor where
  rest : List Char
  line : Nat
  column : Nat
  /-- Nothing but blanks precedes the position on its line. -/
  fresh : Bool
  deriving Repr

/-- The start of a text. -/
def Cursor.ofText (s : List Char) : Cursor :=
  ⟨s, 0, 0, true⟩

/-- A space, a tab, a line end or the end of the text. -/
def isGap : Option Char → Bool
  | none => true
  | some c => c == ' ' || c == '\t' || c == '\n'

/-- `s` starts with a line that separates documents: three dashes or dots alone. -/
def startsMarker (s : List Char) : Bool :=
  (['-', '-', '-'].isPrefixOf s || ['.', '.', '.'].isPrefixOf s) && isGap s[3]?

/-- Skips blanks, comments and line ends. Tabs are blanks between flow brackets only. -/
def skipFrom (flow comment : Bool) (line column : Nat) (fresh : Bool) : List Char → Cursor
  | [] => ⟨[], line, column, fresh⟩
  | c :: s =>
    if c = '\n' then skipFrom flow false (line + 1) 0 true s
    else if comment then skipFrom flow true line (column + 1) fresh s
    else if c = ' ' || (flow && c == '\t') then skipFrom flow false line (column + 1) fresh s
    else if c = '#' then skipFrom flow true line (column + 1) fresh s
    else ⟨c :: s, line, column, fresh⟩

namespace Cursor

/-- The position after one character. -/
def next (c : Cursor) : Cursor :=
  match c.rest with
  | [] => c
  | ch :: s =>
    if ch = '\n' then ⟨s, c.line + 1, 0, true⟩
    else ⟨s, c.line, c.column + 1, c.fresh && ch == ' '⟩

/-- The position after `n` characters. -/
def advance (c : Cursor) : Nat → Cursor
  | 0 => c
  | n + 1 => c.next.advance n

/-- The position at which the given rest of the text remains. -/
def jumpTo (c : Cursor) (rest : List Char) : Cursor :=
  c.advance (c.rest.length - rest.length)

/-- The next content. -/
def skip (flow : Bool) (c : Cursor) : Cursor :=
  skipFrom flow false c.line c.column c.fresh c.rest

/-- The position after spaces. -/
def skipSpaces (c : Cursor) : Cursor :=
  c.jumpTo (c.rest.dropWhile (· == ' '))

/-- The next character. -/
def peek? (c : Cursor) : Option Char :=
  c.rest.head?

/-- The character after the next. -/
def second? (c : Cursor) : Option Char :=
  c.rest[1]?

/-- The position is at a document marker. -/
def atMarker (c : Cursor) : Bool :=
  c.column == 0 && startsMarker c.rest

/-- The document ends here. -/
def atEnd (c : Cursor) : Bool :=
  c.rest.isEmpty || c.atMarker

/-- The position is at the given indicator, with a gap after it. -/
def atIndicator (c : Cursor) (indicator : Char) : Bool :=
  c.peek? == some indicator && isGap c.second?

end Cursor

/-- A reader of part of a text: what it read and where it stopped, or nothing on an error. -/
abbrev Read (α : Type) := Option (α × Cursor)

end UiMarkup.Yaml
