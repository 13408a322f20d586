import UiMarkup.TypeScript.Type

/-!
# Functions and classes

Functions with a body of their own, the members of objects and classes, and classes.
-/

namespace UiMarkup.TypeScript.Grammar

open Reader

/-- A function with the word for it. The name may be missing. -/
def functionExpression (g : Grammar) : Reader Tree :=
  node .function
    (row [maybe (row [word "async", sameLine]), word "function", maybe (mark "*"),
      maybe (Reader.next identifier), g.callSignature, g.next .block])

/-- What follows goes on with the member that a word belongs to. -/
def continuesMember (s : List Char) : Bool :=
  s.head?.any fun c => isNameChar c || ['[', '"', '\x27', '#', '*', '\x7b', '.'].contains c

/-- A word that belongs to the member after it. -/
def memberWord (w : String) : Reader (List Tree) :=
  row [word w, provided continuesMember]

/-- A method of an object. -/
def objectMethod (g : Grammar) : Reader Tree :=
  node .methodDefinition
    (row [many (oneOf (["async", "get", "set", "static"].map memberWord)), maybe (mark "*"),
      Reader.next g.memberName, maybe (mark "?"), g.callSignature, g.next .block])

/-- A member of an object. -/
def objectMember (g : Grammar) : Reader Tree :=
  let shorthand := token .shorthandIdentifier Scan.name
  oneOf [
    node .spread (row [mark "...", g.next .expression]),
    node .pair (row [Reader.next g.memberName, mark ":", g.next .expression]),
    g.objectMethod,
    node .defaultPattern (row [Reader.next shorthand, g.initializer]),
    shorthand]

/-- An object. -/
def object (g : Grammar) : Reader Tree :=
  node .object (row [mark "\x7b", sparseList (Reader.next g.objectMember), mark "\x7d"])

/-! ## Classes -/

/-- The words that may stand before a member of a class. -/
def classWords : List String :=
  ["public", "private", "protected", "static", "abstract", "override", "readonly", "declare",
   "accessor", "async", "get", "set"]

/-- A member of a class. -/
def classMember (g : Grammar) : Reader (List Tree) :=
  let words := many (oneOf (classWords.map memberWord))
  let method := node .methodDefinition
    (row [words, maybe (mark "*"), Reader.next g.memberName, maybe (mark "?"), g.callSignature,
      oneOf [g.next .block, statementEnd]])
  let field := node .fieldDefinition
    (row [words, Reader.next g.memberName, maybe (oneOf [mark "?", mark "!"]),
      maybe g.typeAscription, maybe g.initializer])
  let index := node .signature (row [words, g.indexKey, maybe g.typeAscription])
  oneOf [mark ";",
    Reader.next g.decorator,
    Reader.next (node .staticBlock (row [word "static", g.next .block])),
    Reader.next method,
    row [Reader.next index, statementEnd],
    row [Reader.next field, oneOf [mark ",", statementEnd]]]

/-- The members of a class. -/
def classBody (g : Grammar) : Reader Tree :=
  node .classBody (row [mark "\x7b", many g.classMember, mark "\x7d"])

/-- What a class extends and implements. -/
def heritage (g : Grammar) : Reader Tree :=
  let parent := row [word "extends", g.next .operand, maybe (Reader.next g.typeArguments)]
  let interfaces := row [word "implements", commaList (g.next .type)]
  node .heritage (oneOf [row [parent, maybe interfaces], interfaces])

/-- A class from its name on. -/
def classRest (g : Grammar) (name : Reader (List Tree)) : Reader (List Tree) :=
  row [name, maybe (Reader.next g.typeParameters), maybe (Reader.next g.heritage),
    Reader.next g.classBody]

/-- The name of a class. -/
def className : Reader (List Tree) :=
  row [provided fun s => (Scan.word "extends" s).isNone && (Scan.word "implements" s).isNone,
    Reader.next typeName]

/-- A class as an expression. The name may be missing. -/
def classExpression (g : Grammar) : Reader Tree :=
  node .classNode
    (row [many (Reader.next g.decorator), word "class", g.classRest (maybe className)])

end UiMarkup.TypeScript.Grammar
