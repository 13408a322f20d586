/-!
# Places in a source text

A place is a line and a column, both counted from one. An offset into a text has a place: each line
end before it starts a new line, and the column counts from the last of them.
-/

namespace UiMarkup

/-- A line and a column, counted from one. -/
structure Place where
  line : Int
  column : Int
  deriving Repr, DecidableEq, Inhabited

namespace Place

/-- The place of the first character. -/
def start : Place := ⟨1, 1⟩

/-- The place after one more character. -/
def step (p : Place) (c : Char) : Place :=
  if c = '\n' then ⟨p.line + 1, 1⟩ else ⟨p.line, p.column + 1⟩

/-- The place of an offset into a text. -/
def ofOffset (source : List Char) (offset : Nat) : Place :=
  (source.take offset).foldl step start

/-- The place as messages write it. -/
def text (p : Place) : String :=
  toString p.line ++ ":" ++ toString p.column

end Place

end UiMarkup
