import UiMarkup.TypeScript.Expression

/-!
# Statements

Statements and declarations. A statement ends with a semicolon, with its line, or with the block
that holds it.
-/

namespace UiMarkup.TypeScript.Grammar

open Reader

/-- Statements in braces. -/
def block (g : Grammar) : Reader Tree :=
  node .block (row [mark "\x7b", many (g.next .statement), mark "\x7d"])

/-! ## Declarations -/

/-- A variable with its type and its value. -/
def declarator (g : Grammar) : Reader Tree :=
  node .declarator
    (row [g.next .pattern, maybe (mark "!"), maybe g.typeAscription, maybe g.initializer])

/-- The words that declare variables. -/
def variableWords : Reader (List Tree) :=
  oneOf [word "const", word "let", word "var"]

/-- A declaration of variables. -/
def variableDeclaration (g : Grammar) : Reader Tree :=
  let one := Reader.next g.declarator
  node .declaration
    (row [variableWords, provided fun s => (Scan.word "enum" s).isNone, one,
      many (row [mark ",", one]), statementEnd])

/-- A function with its name; it may be declared without a body. -/
def functionDeclaration (g : Grammar) : Reader Tree :=
  node .function
    (row [maybe (row [word "async", sameLine]), word "function", maybe (mark "*"),
      Reader.next identifier, g.callSignature, oneOf [g.next .block, statementEnd]])

/-- A class with its name. -/
def classDeclaration (g : Grammar) : Reader Tree :=
  node .classNode
    (row [many (Reader.next g.decorator), maybe (word "abstract"), word "class",
      g.classRest className])

/-- An interface. -/
def interfaceDeclaration (g : Grammar) : Reader Tree :=
  node .interface
    (row [word "interface", Reader.next typeName, maybe (Reader.next g.typeParameters),
      maybe (row [word "extends", commaList (g.next .type)]), Reader.next g.objectType])

/-- A name for a type. -/
def typeAlias (g : Grammar) : Reader Tree :=
  node .typeAlias
    (row [word "type", Reader.next typeName, maybe (Reader.next g.typeParameters), mark "=",
      g.next .type, statementEnd])

/-- An enumeration. -/
def enumeration (g : Grammar) : Reader Tree :=
  let value := row [Reader.next g.memberName, maybe g.initializer]
  node .enumeration
    (row [maybe (word "const"), word "enum", Reader.next identifier, mark "\x7b",
      maybe (commaList value), mark "\x7d"])

/-- A namespace. -/
def namespaceDeclaration (g : Grammar) : Reader Tree :=
  let name := row [Reader.next identifier, many (row [mark ".", Reader.next identifier])]
  node .namespaceNode
    (oneOf [row [word "namespace", name, g.next .block],
      row [word "module", sameLine, oneOf [Reader.next string, name],
        oneOf [g.next .block, statementEnd]]])

/-- A declaration of what exists elsewhere. -/
def ambientDeclaration (g : Grammar) : Reader Tree :=
  node .ambient
    (row [word "declare", sameLine,
      oneOf [row [word "global", g.next .block], g.next .statement]])

/-! ## Imports and exports -/

/-- A name of a module, perhaps with another name for it. -/
def specifier : Reader Tree :=
  let name := Reader.next (oneOf [identifier, string])
  node .specifier
    (oneOf [row [oneOf [word "type", word "typeof"], name, maybe (row [word "as", name]),
        provided fun s => s.head?.any fun c => c == ',' || c == '\x7d'],
      row [name, maybe (row [word "as", name])]])

/-- Names of a module in braces. -/
def specifiers : Reader Tree :=
  node .specifiers (row [mark "\x7b", maybe (commaList (Reader.next specifier)), mark "\x7d"])

/-- The module that names come from, perhaps with attributes. -/
def fromClause (g : Grammar) : Reader (List Tree) :=
  row [word "from", Reader.next string,
    maybe (row [oneOf [word "with", word "assert"], Reader.next g.object])]

/-- What an import brings in. -/
def importClause : Reader (List Tree) :=
  let all := row [mark "*", word "as", Reader.next identifier]
  oneOf [all, Reader.next specifiers,
    row [Reader.next identifier, maybe (row [mark ",", oneOf [all, Reader.next specifiers]])]]

/-- An import. -/
def importStatement (g : Grammar) : Reader Tree :=
  let kind := oneOf [word "type", word "typeof"]
  let named := row [importClause, g.fromClause]
  let renamed := row [Reader.next identifier, mark "=",
    oneOf [row [word "require", mark "(", Reader.next string, mark ")"],
      row [Reader.next identifier, many (row [mark ".", Reader.next identifier])]]]
  node .importStatement
    (row [word "import",
      oneOf [row [kind, named], named, row [maybe kind, renamed],
        row [Reader.next string,
          maybe (row [oneOf [word "with", word "assert"], Reader.next g.object])]],
      statementEnd])

/-- An export. -/
def exportStatement (g : Grammar) : Reader Tree :=
  let every := row [mark "*", maybe (row [word "as", Reader.next (oneOf [identifier, string])]),
    g.fromClause, statementEnd]
  let listed := row [maybe (word "type"), Reader.next specifiers, maybe g.fromClause, statementEnd]
  let standard := row [word "default",
    oneOf [Reader.next g.functionDeclaration, Reader.next g.classDeclaration,
      Reader.next g.interfaceDeclaration, row [Reader.next g.expressions, statementEnd]]]
  node .exportStatement
    (row [many (Reader.next g.decorator), word "export",
      oneOf [row [maybe (word "type"), every], listed, standard,
        row [mark "=", Reader.next g.expressions, statementEnd],
        row [word "as", word "namespace", Reader.next identifier, statementEnd],
        g.next .statement]])

/-! ## Control -/

/-- An expression in parentheses. -/
def condition (g : Grammar) : Reader (List Tree) :=
  row [mark "(", Reader.next g.expressions, mark ")"]

/-- A choice between statements. -/
def ifStatement (g : Grammar) : Reader Tree :=
  node .ifStatement
    (row [word "if", g.condition, g.next .statement,
      maybe (Reader.next (node .elseClause (row [word "else", g.next .statement])))])

/-- A loop over the items or the keys of a value. -/
def forInStatement (g : Grammar) : Reader Tree :=
  let declared := row [variableWords, g.next .pattern, maybe g.initializer]
  node .forInStatement
    (row [word "for", maybe (word "await"), mark "(",
      oneOf [row [declared, oneOf [word "of", word "in"]],
        row [Reader.next g.chain, oneOf [word "of", word "in"]]],
      Reader.next g.expressions, mark ")", g.next .statement])

/-- A loop with a start, a condition and a step. -/
def forStatement (g : Grammar) : Reader Tree :=
  let one := Reader.next g.declarator
  let start := oneOf [row [variableWords, one, many (row [mark ",", one]), mark ";"],
    row [Reader.next g.expressions, mark ";"], mark ";"]
  node .forStatement
    (row [word "for", mark "(", start, maybe (Reader.next g.expressions), mark ";",
      maybe (Reader.next g.expressions), mark ")", g.next .statement])

/-- A loop with its condition first or last. -/
def whileStatement (g : Grammar) : Reader Tree :=
  oneOf [node .whileStatement (row [word "while", g.condition, g.next .statement]),
    node .doStatement (row [word "do", g.next .statement, word "while", g.condition,
      maybe (mark ";")])]

/-- A choice among cases. -/
def switchStatement (g : Grammar) : Reader Tree :=
  let label := oneOf [row [word "case", Reader.next g.expressions, mark ":"],
    row [word "default", mark ":"]]
  node .switchStatement
    (row [word "switch", g.condition, mark "\x7b",
      many (Reader.next (node .switchCase (row [label, many (g.next .statement)]))),
      mark "\x7d"])

/-- A block with what happens when it fails. -/
def tryStatement (g : Grammar) : Reader Tree :=
  let caught := row [mark "(", g.next .pattern, maybe g.typeAscription, mark ")"]
  let handler := Reader.next
    (node .catchClause (row [word "catch", maybe caught, g.next .block]))
  let last := Reader.next (node .finallyClause (row [word "finally", g.next .block]))
  node .tryStatement (row [word "try", g.next .block, maybe handler, maybe last])

/-- A statement that leaves its place. -/
def jump (g : Grammar) : Reader Tree :=
  let label := maybe (row [sameLine, Reader.next (token .labelIdentifier Scan.name)])
  node .jump
    (oneOf [row [word "return", maybe (row [sameLine, Reader.next g.expressions]), statementEnd],
      row [word "throw", Reader.next g.expressions, statementEnd],
      row [word "break", label, statementEnd],
      row [word "continue", label, statementEnd],
      row [word "debugger", statementEnd]])

/-- The words that start a statement and are not names there. -/
def statementWords : List String :=
  ["if", "for", "while", "do", "switch", "try", "return", "throw", "break", "continue", "debugger",
   "const", "var", "with", "enum", "export", "case", "default", "else"]

/-- Nothing, provided that what comes next can be a name at the start of a statement. -/
def notStatementWord : Reader (List Tree) :=
  provided fun s => statementWords.all fun w => (Scan.word w s).isNone

/-- A statement with a label. -/
def labelled (g : Grammar) : Reader Tree :=
  node .labelled
    (row [notStatementWord, Reader.next (token .labelIdentifier Scan.name), mark ":",
      g.next .statement])

/-- The start of a function or a class with a name, which is a declaration. -/
def declarationStart : Reader (List Tree) :=
  oneOf [mark "@",
    row [maybe (word "async"), word "function", maybe (mark "*"), Reader.next identifier],
    row [word "class", className]]

/-- The start of an object: a spread, or the name of a member with a colon or a comma after it. -/
def objectStart (g : Grammar) : Reader (List Tree) :=
  row [mark "\x7b", oneOf [mark "...", row [Reader.next g.memberName, markIn [":", ","]]]]

/-- An expression as a statement. -/
def expressionStatement (g : Grammar) : Reader Tree :=
  node .expressionStatement
    (row [notStatementWord, notAhead declarationStart,
      oneOf [notAhead (mark "\x7b"), before g.objectStart], Reader.next g.expressions,
      statementEnd])

/-- Any statement. -/
def statement (g : Grammar) : Reader Tree :=
  oneOf [g.read .block, node .emptyStatement (mark ";"), g.variableDeclaration, g.functionDeclaration,
    g.classDeclaration, g.ifStatement, g.forInStatement, g.forStatement, g.whileStatement,
    g.switchStatement, g.tryStatement, g.jump,
    node .withStatement (row [word "with", g.condition, g.next .statement]),
    g.interfaceDeclaration, g.typeAlias, g.enumeration, g.namespaceDeclaration,
    g.ambientDeclaration, g.importStatement, g.exportStatement, g.labelled, g.expressionStatement]

end UiMarkup.TypeScript.Grammar
