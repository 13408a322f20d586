import UiMarkup.Markup.Place

/-!
# Diagnostics

Why a component was dropped, and where. `Cause.message` is the wording of every cause.
-/

namespace UiMarkup

/-- Why a component cannot be read. -/
inductive Cause where
  | expectedComponentName
  | expectedCall (component : String)
  | unclosedBlock (component : String)
  | expectedComponent (got : String)
  | expectedModifierName
  | expectedModifierArguments (modifier : String)
  | unclosedArguments
  | expectedSeparator (got : String)
  | unterminatedString
  | templateArgument
  | argumentMissing
  | unexpectedArgument (got : String)
  | nestingTooDeep
  deriving Repr, DecidableEq

/-- The wording of a cause. -/
def Cause.message : Cause → String
  | expectedComponentName => "Expected component name"
  | expectedCall name => "Expected '(' or '\x7b' after component '" ++ name ++ "'"
  | unclosedBlock name => "Expected '\x7d' to close '" ++ name ++ "' block"
  | expectedComponent got => "Expected component call, got '" ++ got ++ "'"
  | expectedModifierName => "Expected modifier name after '.'"
  | expectedModifierArguments name => "Expected '(' after modifier '" ++ name ++ "'"
  | unclosedArguments => "Expected ')' to close argument list"
  | expectedSeparator got => "Expected ',' or ')', got '" ++ got ++ "'"
  | unterminatedString => "Unterminated string literal"
  | templateArgument => "Template literals are not supported as arguments"
  | argumentMissing => "Unexpected end of input in argument list"
  | unexpectedArgument got => "Unexpected token '" ++ got ++ "' in argument list"
  | nestingTooDeep => "Component nesting is too deep"

/-- A cause with its offset into the source and the place of that offset. -/
structure Diagnostic where
  cause : Cause
  position : Nat
  place : Place
  deriving Repr, DecidableEq

namespace Diagnostic

/-- The wording of the cause. -/
def message (d : Diagnostic) : String :=
  d.cause.message

/-- The place and the message on one line. -/
def text (d : Diagnostic) : String :=
  d.place.text ++ ": " ++ d.message

end Diagnostic

end UiMarkup
