import UiMarkup.TypeScript.Dialect
import UiMarkup.TypeScript.Reader

/-!
# Rules of the grammar

The rules that other rules refer to. A production takes the readers of these rules as a parameter,
so that each is an ordinary function; the program module ties them together.
-/

namespace UiMarkup.TypeScript

/-- A rule that productions refer to. -/
inductive Rule where
  | statement
  /-- A statement that is a block. -/
  | block
  /-- An expression without a comma on its outer level. -/
  | expression
  /-- An operand, perhaps raised to a power. -/
  | power
  /-- An expression with the operators that stand before and after it. -/
  | operand
  /-- An object that is made anew. -/
  | newObject
  | type
  | pattern
  | element
  deriving Repr, DecidableEq

/-- The readers of the rules, for one dialect. -/
structure Grammar where
  dialect : Dialect
  read : Rule → Reader Tree

namespace Grammar

open Reader

/-- The next node of a rule. -/
def next (g : Grammar) (r : Rule) : Reader (List Tree) :=
  Reader.next (g.read r)

/-- A name that refers to a value. -/
def identifier : Reader Tree :=
  token .identifier Scan.name

/-- A name with a hash sign. -/
def privateName : Reader Tree :=
  token .privateIdentifier (Scan.andThen (Scan.exactly ['#']) Scan.name)

/-- A string literal. -/
def string : Reader Tree :=
  token .string Scan.string

/-- One or more expressions with commas between them. -/
def expressions (g : Grammar) : Reader Tree := do
  let first ← g.read .expression
  extend .sequence first (row [mark ",", g.next .expression,
      many (row [mark ",", g.next .expression])])
    <|> return first

/-- An expression in square brackets that stands for a name. -/
def computedName (g : Grammar) : Reader Tree :=
  node .computedName (row [mark "[", Reader.next g.expressions, mark "]"])

/-- The name of a member of an object or a class. -/
def memberName (g : Grammar) : Reader Tree :=
  oneOf [token .propertyIdentifier Scan.name, privateName, string, token .number Scan.number,
    g.computedName]

/-- A type after a colon. -/
def typeAscription (g : Grammar) : Reader (List Tree) :=
  Reader.next (node .typeAscription (row [mark ":", g.next .type]))

/-- A value after an equals sign. -/
def initializer (g : Grammar) : Reader (List Tree) :=
  row [mark "=", g.next .expression]

/-- A substitution in a template. -/
def substitution (g : Grammar) : Reader Tree :=
  node .templateSubstitution
    (row [do return [← token .mark (Scan.exactly ['$', '\x7b'])], Reader.next g.expressions,
      mark "\x7d"])

/-- A template. -/
def template (g : Grammar) : Reader Tree :=
  let here (r : Reader Tree) : Reader (List Tree) := do return [← r]
  let quote := here (token .mark (Scan.exactly ['\x60']))
  node .templateString
    (row [quote,
      many (oneOf [here (token .stringFragment Scan.templateFragment),
        here (token .escapeSequence Scan.escape), here g.substitution]),
      quote])

end Grammar

end UiMarkup.TypeScript
