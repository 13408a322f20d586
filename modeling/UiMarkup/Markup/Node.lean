import UiMarkup.Markup.Place
import UiMarkup.Number

/-!
# The component tree

A component is called with arguments, may contain further components, and carries a chain of
modifiers that apply from left to right. Arguments are literals and references into the host code;
they stand before the contained components.
-/

namespace UiMarkup

/-- An argument of a component or a modifier. -/
inductive Expr where
  /-- A string literal. -/
  | text (value : String)
  /-- A number literal. -/
  | number (value : Number)
  /-- A name of the host code, dotted or not. -/
  | reference (name : String)
  deriving Repr, DecidableEq

/-- A modifier call `.name(arguments)`. -/
structure Modifier where
  name : String
  arguments : List Expr
  deriving Repr, DecidableEq

/-- A component call with its contained components and its modifier chain. -/
structure Component where
  name : String
  arguments : List Expr
  components : List Component
  modifiers : List Modifier
  place : Place
  deriving Repr, Inhabited

namespace Component

/-- The component and all below it, each before those that it contains. -/
def preorder : Component → List Component
  | ⟨name, arguments, components, modifiers, place⟩ =>
    ⟨name, arguments, components, modifiers, place⟩ :: components.flatMap preorder

theorem preorder_eq (c : Component) : c.preorder = c :: c.components.flatMap preorder := by
  cases c
  rw [preorder]

theorem mem_preorder (c : Component) : c ∈ c.preorder := by
  rw [preorder_eq]
  exact List.mem_cons_self

end Component

end UiMarkup
