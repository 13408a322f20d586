import UiMarkup.TypeScript.Element
import UiMarkup.TypeScript.Function

/-!
# Expressions

Expressions by the strength of their operators: primary expressions, members and calls, operands
with the operators before and after them, binary operators, choices, and functions and assignments.
-/

namespace UiMarkup.TypeScript.Grammar

open Reader

/-! ## Primary expressions -/

/-- The words that stand for values. -/
def constants : List String := ["true", "false", "null", "undefined"]

/-- The words that start an expression and are not names in it. -/
def expressionWords : List String :=
  ["function", "class", "new", "typeof", "void", "delete", "import"]

/-- A name, unless it is a word that starts an expression of another kind. -/
def reference : Reader Tree := fun p =>
  if expressionWords.any fun w => (Scan.word w p.rest).isSome then none else identifier p

/-- An array. -/
def array (g : Grammar) : Reader Tree :=
  let item := oneOf [node .spread (row [mark "...", g.next .expression]), g.read .expression]
  node .array (row [mark "[", sparseList (Reader.next item), mark "]"])

/-- An expression in parentheses, perhaps with its type. -/
def parenthesized (g : Grammar) : Reader Tree :=
  node .parenthesized (row [mark "(", Reader.next g.expressions, maybe g.typeAscription, mark ")"])

/-- What a call passes. -/
def arguments (g : Grammar) : Reader Tree :=
  let item := oneOf [node .spread (row [mark "...", g.next .expression]), g.read .expression]
  node .arguments (row [mark "(", sparseList (Reader.next item), mark ")"])

/-- An expression that no operator takes apart. -/
def primary (g : Grammar) : Reader Tree :=
  let property (keyword name : String) : Reader Tree :=
    node .metaProperty (row [word keyword, mark ".", word name])
  oneOf ([
    token .number Scan.number, string, g.template, token .regex Scan.regex, g.parenthesized, g.array,
    g.object, privateName, g.functionExpression, g.classExpression,
    token .this (Scan.word "this"), token .super (Scan.word "super"),
    property "import" "meta", property "new" "target",
    (do
      let t ← token .constant (Scan.word "import")
      let _ ← provided fun s => s.head? == some '('
      return t)] ++
    constants.map (fun w => token .constant (Scan.word w)) ++
    [reference] ++
    (if g.dialect = .tsx then [g.read .element] else []))

/-! ## Members and calls -/

/-- The name of a member. -/
def property : Reader (List Tree) :=
  nextAs .property (oneOf [token .propertyIdentifier Scan.name, privateName])

/-- An index in brackets. -/
def index (g : Grammar) : Reader (List Tree) :=
  row [mark "[", Reader.next g.expressions, mark "]"]

/-- The mark of an optional member or call. -/
def optionalChain : Reader (List Tree) :=
  Reader.next (token .optionalChain (Scan.operator "?."))

/-- A member of `t`, by name or by index, or `t` marked as present. -/
def memberOf (g : Grammar) (t : Tree) : Reader Tree :=
  let object := t.withRole .object
  oneOf [
    extend .member object (row [mark ".", property]),
    extend .member object (row [optionalChain, property]),
    extend .subscript object g.index,
    extend .subscript object (row [optionalChain, g.index]),
    extend .nonNull t (row [sameLine, mark "!"])]

/-- What follows cannot go on with an expression. -/
def endsExpression (s : List Char) : Bool :=
  s.isEmpty || s.head?.any fun c => [')', ']', '\x7d', ',', ';', ':'].contains c

/-- A call of `t`. -/
def callOf (g : Grammar) (t : Tree) : Reader Tree :=
  let function := t.withRole .function
  let types := Reader.next g.typeArguments
  let passed := nextAs .arguments g.arguments
  let template := nextAs .arguments g.template
  oneOf [
    extend .call function passed,
    extend .call function template,
    extend .call function (row [optionalChain, maybe types, passed]),
    extend .call function (row [types, oneOf [passed, template]]),
    extend .instantiation t (row [types, provided endsExpression])]

/-- A new object. What is made is a member without calls; the arguments may be missing. -/
def newObject (g : Grammar) : Reader Tree :=
  let maker : Reader Tree := do grow g.memberOf (← oneOf [g.read .newObject, g.primary])
  node .newExpression (row [word "new", Reader.next maker, maybe (Reader.next g.typeArguments),
    oneOf [nextAs .arguments g.arguments, notAhead (mark "(")]])

/-- A primary expression with members and calls after it. -/
def chain (g : Grammar) : Reader Tree := do
  grow (fun t => g.memberOf t <|> g.callOf t) (← oneOf [g.newObject, g.primary])

/-! ## Operands -/

/-- An expression with the operators that stand before and after it. -/
def operand (g : Grammar) : Reader Tree :=
  let signs := ["!", "~", "+", "-"].map fun op => row [mark op, g.next .operand]
  let words := ["typeof", "void", "delete"].map fun w => row [word w, g.next .operand]
  let steps := oneOf [mark "++", mark "--"]
  let cast := row [Reader.next g.typeArguments, g.next .operand]
  oneOf ([
    node .unary (oneOf (signs ++ words)),
    node .update (row [steps, g.next .operand]),
    node .awaitExpression (row [word "await", g.next .operand])] ++
    (if g.dialect = .typescript then [node .typeAssertion cast] else []) ++
    [do
      let t ← g.chain
      extend .update t (row [sameLine, steps]) <|> return t])

/-! ## Binary operators -/

/-- The binary operators by strength, the weakest first. -/
def binaryOperators : List (List String) :=
  [["??"], ["||"], ["&&"], ["|"], ["^"], ["&"], ["==", "!=", "===", "!=="], ["<", ">", "<=", ">="],
   ["<<", ">>", ">>>"], ["+", "-"], ["*", "/", "%"]]

/-- An operand, perhaps raised to a power. -/
def power (g : Grammar) : Reader Tree := do
  let t ← g.read .operand
  extend .binary t (row [mark "**", g.next .power]) <|> return t

/-- What a relation adds to its left side: another value, or a type. -/
def relation (g : Grammar) (right : Reader Tree) (t : Tree) : Reader Tree :=
  oneOf [
    extend .binary t (row [oneOf [word "in", word "instanceof"], Reader.next right]),
    extend .asExpression t (row [sameLine, word "as", oneOf [word "const", g.next .type]]),
    extend .asExpression t (row [sameLine, word "satisfies", g.next .type])]

/-- Operators of the given levels between operands. -/
def binary (g : Grammar) : (levels : List (List String)) → Reader Tree
  | [] => g.read .power
  | ops :: levels => do
    let right := g.binary levels
    let step (t : Tree) : Reader Tree := extend .binary t (row [markIn ops, Reader.next right])
    let more (t : Tree) : Reader Tree :=
      if ops.contains "<" then step t <|> g.relation right t else step t
    grow more (← right)

/-- A choice between two expressions, or no choice at all. -/
def conditional (g : Grammar) : Reader Tree := do
  let t ← g.binary binaryOperators
  extend .ternary t (row [mark "?", g.next .expression, mark ":", g.next .expression]) <|> return t

/-! ## Functions and assignments -/

/-- The arrow of a function and what follows it. -/
def arrowBody (g : Grammar) : Reader (List Tree) :=
  row [sameLine, mark "=>", oneOf [row [provided fun s => s.head? == some '\x7b', g.next .block],
    row [provided fun s => s.head? != some '\x7b', g.next .expression]]]

/-- An arrow function that shows after its first word: one with a parameter that has no parentheses,
or one with type parameters after the word. -/
def simpleArrow (g : Grammar) : Reader Tree :=
  node .arrowFunction
    (oneOf [row [word "async", sameLine, Reader.next identifier, g.arrowBody],
      row [Reader.next identifier, g.arrowBody],
      row [word "async", sameLine, Reader.next g.typeParameters, g.callSignature, g.arrowBody]])

/-- An arrow function with parentheses around its parameters. -/
def arrow (g : Grammar) : Reader Tree :=
  node .arrowFunction (row [maybe (row [word "async", sameLine]), g.callSignature, g.arrowBody])

/-- The operators of assignments. -/
def assignmentOperators : List String :=
  ["=", "+=", "-=", "*=", "/=", "%=", "**=", "<<=", ">>=", ">>>=", "&=", "|=", "^=", "&&=", "||=",
   "??="]

/-- An assignment, or an expression without one. -/
def assignment (g : Grammar) : Reader Tree := do
  let t ← g.conditional
  extend .assignment t (row [markIn assignmentOperators, g.next .expression]) <|> return t

/-- A value that a generator gives. -/
def yielded (g : Grammar) : Reader Tree :=
  node .yieldExpression
    (row [word "yield",
      oneOf [row [mark "*", g.next .expression], maybe (row [sameLine, g.next .expression])]])

/-- An expression that is no function of the simple form. Parentheses turn out to hold parameters if
an arrow follows them, perhaps after a type. -/
def assignmentOrArrow (g : Grammar) : Reader Tree := fun p =>
  match g.assignment p with
  | none => g.arrow p
  | some (t, stop) =>
    match Scan.operator? stop.ahead.rest with
    | some "=>" => g.arrow p
    | some ":" => (g.arrow p).or (some (t, stop))
    | _ => some (t, stop)

/-- Any expression without a comma on its outer level. -/
def expression (g : Grammar) : Reader Tree :=
  oneOf [g.simpleArrow, g.yielded, g.assignmentOrArrow]

end UiMarkup.TypeScript.Grammar
