import UiMarkup.TypeScript.Grammar

/-!
# Patterns and parameters

What a value can be bound to: a name, or the parts of an array or an object.
-/

namespace UiMarkup.TypeScript.Grammar

open Reader

/-- A pattern for all that is left. -/
def restPattern (g : Grammar) : Reader Tree :=
  node .restPattern (row [mark "...", g.next .pattern])

/-- A pattern, perhaps with the value that it takes when there is none. -/
def patternWithDefault (g : Grammar) : Reader Tree := do
  let p ← g.read .pattern
  extend .defaultPattern p g.initializer <|> return p

/-- A part of an object pattern. -/
def propertyPattern (g : Grammar) : Reader Tree :=
  let shorthand := token .shorthandIdentifier Scan.name
  oneOf [g.restPattern,
    node .pair (row [Reader.next g.memberName, mark ":", Reader.next g.patternWithDefault]),
    node .defaultPattern (row [Reader.next shorthand, g.initializer]), shorthand]

/-- The parts of an object. -/
def objectPattern (g : Grammar) : Reader Tree :=
  node .objectPattern
    (row [mark "\x7b", sparseList (Reader.next g.propertyPattern), mark "\x7d"])

/-- The items of an array. -/
def arrayPattern (g : Grammar) : Reader Tree :=
  node .arrayPattern
    (row [mark "[", sparseList (oneOf [Reader.next g.restPattern,
      Reader.next g.patternWithDefault]), mark "]"])

/-- A pattern. -/
def pattern (g : Grammar) : Reader Tree :=
  oneOf [g.objectPattern, g.arrayPattern, token .this (Scan.word "this"), identifier]

/-- A decorator: an at sign and a name, a member or a call. -/
def decorator (g : Grammar) : Reader Tree :=
  node .decorator (row [mark "@", sameLine, g.next .operand])

/-- The words that may stand before a parameter. -/
def parameterWords : List String :=
  ["public", "private", "protected", "override", "readonly"]

/-- What follows is a name or a pattern. -/
def startsPattern (s : List Char) : Bool :=
  s.head?.any fun c => isNameStart c || c == '[' || c == '\x7b'

/-- A word before something that starts like a pattern. -/
def modifierWord (w : String) : Reader (List Tree) :=
  row [word w, provided startsPattern]

/-- A parameter. -/
def parameter (g : Grammar) : Reader Tree :=
  node .parameter
    (row [many (Reader.next g.decorator), many (oneOf (parameterWords.map modifierWord)),
      oneOf [Reader.next g.restPattern, g.next .pattern], maybe (mark "?"),
      maybe g.typeAscription, maybe g.initializer])

/-- Parameters in parentheses. -/
def parameters (g : Grammar) : Reader Tree :=
  node .parameters (row [mark "(", maybe (commaList (Reader.next g.parameter)), mark ")"])

end UiMarkup.TypeScript.Grammar
