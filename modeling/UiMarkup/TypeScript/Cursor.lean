import UiMarkup.TypeScript.Tree

/-!
# Walking a tree

A cursor stands on a node and remembers how it got there: for every step down, the node that it left
and the siblings on both sides. It cannot go above the node at which it started. `Tree.walk` lists
the nodes that a cursor meets when it goes down first, then to the side, and up when neither is
possible.
-/

namespace UiMarkup.TypeScript

/-- A step down from `parent`, past the siblings `before` (nearest first) and short of `after`. -/
structure Descent where
  parent : Tree
  before : List Tree
  after : List Tree
  deriving Repr, Inhabited

/-- A place in a tree: the node there and the steps that lead to it, the last one first. -/
structure Cursor where
  focus : Tree
  path : List Descent
  deriving Repr, Inhabited

namespace Cursor

/-- Goes down to the first child. -/
def firstChild? (c : Cursor) : Option Cursor :=
  match c.focus.children with
  | [] => none
  | t :: ts => some ⟨t, ⟨c.focus, [], ts⟩ :: c.path⟩

/-- Goes to the next sibling. -/
def nextSibling? (c : Cursor) : Option Cursor :=
  match c.path with
  | [] => none
  | d :: path =>
    match d.after with
    | [] => none
    | t :: ts => some ⟨t, ⟨d.parent, c.focus :: d.before, ts⟩ :: path⟩

/-- Goes up to the parent. -/
def parent? (c : Cursor) : Option Cursor :=
  match c.path with
  | [] => none
  | d :: path => some ⟨d.parent.withChildren (d.before.reverse ++ c.focus :: d.after), path⟩

/-- The nodes that the cursor meets in `fuel` moves. `visited` says that it has met the node that it
stands on, and everything below it. -/
def walk : (fuel : Nat) → (visited : Bool) → Cursor → List Tree
  | 0, _, _ => []
  | fuel + 1, false, c =>
    c.focus ::
      match c.firstChild? with
      | some c => c.walk fuel false
      | none => c.walk fuel true
  | fuel + 1, true, c =>
    match c.nextSibling? with
    | some c => c.walk fuel false
    | none =>
      match c.parent? with
      | some c => c.walk fuel true
      | none => []

end Cursor

/-- The nodes of a tree, in the order in which a cursor meets them. -/
def Tree.walk (t : Tree) : List Tree :=
  Cursor.walk (2 * t.size) false ⟨t, []⟩

end UiMarkup.TypeScript
