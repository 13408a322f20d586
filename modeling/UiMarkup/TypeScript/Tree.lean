/-!
# TypeScript syntax trees

A tree node has a kind, the role that it plays in its parent, the span of bytes that it covers, and
its children in the order of the text. Tokens without a meaning of their own, such as brackets and
operators, are nodes too, of the kind `mark`; comments stand where they are written.
-/

namespace UiMarkup.TypeScript

/-- The kind of a node. -/
inductive Kind where
  /-- A token that is not a node in its own right: punctuation or a keyword. -/
  | mark
  /-- Text that cannot be read. -/
  | error
  | comment
  | program
  -- names
  | identifier
  | propertyIdentifier
  | privateIdentifier
  | shorthandIdentifier
  | typeIdentifier
  | labelIdentifier
  -- literals
  | number
  | string
  | stringFragment
  | escapeSequence
  | regex
  | templateString
  | templateSubstitution
  | this
  | super
  | constant
  -- expressions
  | array
  | object
  | pair
  | computedName
  | spread
  | parenthesized
  | sequence
  | call
  | newExpression
  | arguments
  | typeArguments
  | member
  | optionalChain
  | subscript
  | nonNull
  | unary
  | update
  | binary
  | ternary
  | assignment
  | awaitExpression
  | yieldExpression
  | asExpression
  | typeAssertion
  | instantiation
  | metaProperty
  | arrowFunction
  | function
  | classNode
  | classBody
  | methodDefinition
  | fieldDefinition
  | staticBlock
  | heritage
  | decorator
  -- patterns
  | parameters
  | parameter
  | arrayPattern
  | objectPattern
  | restPattern
  | defaultPattern
  -- types
  | typeAscription
  | typeParameters
  | typeNode
  | qualifiedName
  | objectType
  | signature
  | templateType
  -- elements
  | element
  | openingTag
  | closingTag
  | selfClosingTag
  | elementText
  | characterReference
  | embedded
  | tagAttribute
  | namespacedName
  -- statements
  | expressionStatement
  | declaration
  | declarator
  | block
  | ifStatement
  | elseClause
  | forStatement
  | forInStatement
  | whileStatement
  | doStatement
  | switchStatement
  | switchCase
  | tryStatement
  | catchClause
  | finallyClause
  | jump
  | labelled
  | emptyStatement
  | withStatement
  | importStatement
  | exportStatement
  | specifiers
  | specifier
  | interface
  | typeAlias
  | enumeration
  | namespaceNode
  | ambient
  deriving Repr, DecidableEq, Inhabited

/-- The node is more than a token. -/
def Kind.isNamed (k : Kind) : Bool :=
  k != .mark

/-- The role of a node in its parent, where one matters. -/
inductive Role where
  /-- What is called. -/
  | function
  /-- What a call passes. -/
  | arguments
  /-- What a member is taken of. -/
  | object
  /-- The member that is taken. -/
  | property
  deriving Repr, DecidableEq

/-- The bytes from `start` to just before `stop`. -/
structure Span where
  start : Nat
  stop : Nat
  deriving Repr, DecidableEq, Inhabited

/-- A node with the nodes below it. -/
inductive Tree where
  | node (role : Option Role) (kind : Kind) (span : Span) (children : List Tree)
  deriving Repr, Inhabited

namespace Tree

/-- The role that the node plays in its parent. -/
def role : Tree → Option Role
  | node r _ _ _ => r

/-- The kind of the node. -/
def kind : Tree → Kind
  | node _ k _ _ => k

/-- The bytes that the node covers. -/
def span : Tree → Span
  | node _ _ s _ => s

/-- The nodes right below the node. -/
def children : Tree → List Tree
  | node _ _ _ ts => ts

/-- The same node in another role. -/
def withRole (r : Role) : Tree → Tree
  | node _ k s ts => node (some r) k s ts

/-- The same node with other children. -/
def withChildren (ts : List Tree) : Tree → Tree
  | node r k s _ => node r k s ts

/-- The child in the given role. -/
def child? (r : Role) (t : Tree) : Option Tree :=
  t.children.find? fun c => c.role == some r

/-- The children that are more than tokens. -/
def namedChildren (t : Tree) : List Tree :=
  t.children.filter fun c => c.kind.isNamed

mutual
/-- The number of nodes of a tree. -/
def size : Tree → Nat
  | node _ _ _ ts => sizes ts + 1

/-- The number of nodes of a row of trees. -/
def sizes : List Tree → Nat
  | [] => 0
  | t :: ts => t.size + sizes ts
end

end Tree

end UiMarkup.TypeScript
