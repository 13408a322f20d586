import UiMarkup.Text.Offset
import UiMarkup.TypeScript.Cursor
import UiMarkup.TypeScript.Dialect

/-!
# Documents

A document is a text with the tree of it. Which parser makes the tree is left open: what counts here
is what a parser hands over.
-/

namespace UiMarkup.TypeScript

/-- What a parser makes of a text: a tree, and whether anything in it is missing or could not be
read. -/
structure Parsed where
  root : Tree
  hasError : Bool

/-- The number of places that could not be read. -/
def Parsed.errorCount (p : Parsed) : Nat :=
  p.root.walk.countP fun t => t.kind == .error

/-- A parser of texts. It gives a message instead of a tree if it breaks off. -/
abbrev SourceParser := Dialect → List Char → Except String Parsed

/-- A text and its tree. -/
structure Document where
  text : List Char
  root : Tree

namespace Document

/-- The text that a node covers. -/
def textOf (d : Document) (t : Tree) : String :=
  String.ofList (Text.slice d.text t.span.start t.span.stop)

/-- The character offsets between which a node stands. -/
def charRange (d : Document) (t : Tree) : Nat × Nat :=
  (Text.charOffset d.text t.span.start, Text.charOffset d.text t.span.stop)

end Document

end UiMarkup.TypeScript
