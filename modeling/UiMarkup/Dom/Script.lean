import UiMarkup.Markup.Node
import UiMarkup.Text.DoubleQuoted

/-!
# Arguments as script

The script expressions that stand for the arguments of components and modifiers.
-/

namespace UiMarkup.Expr

/-- The argument as an expression. -/
def script : Expr → String
  | text s => Text.doubleQuoted s
  | number n => n.text
  | reference name => name

/-- The argument as a length: a number gets the unit of pixels, a string passes unchanged, and a
reference becomes a template that appends the unit. -/
def length : Expr → String
  | text s => Text.doubleQuoted s
  | number n => Text.doubleQuoted (n.text ++ "px")
  | reference name => "`$\x7b" ++ name ++ "\x7dpx`"

/-- The argument as the text of an element; without an argument the text is empty. -/
def content : Option Expr → String
  | none => Text.doubleQuoted ""
  | some (text s) => Text.doubleQuoted s
  | some (number n) => Text.doubleQuoted n.text
  | some (reference name) => name

end UiMarkup.Expr
