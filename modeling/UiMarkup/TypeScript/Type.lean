import UiMarkup.TypeScript.Pattern

/-!
# Types

Types as they stand in annotations, casts and declarations. Names of types are not references to
values; the names of the parameters of function types, and the values in type queries, are.
-/

namespace UiMarkup.TypeScript.Grammar

open Reader

/-- The name of a type. -/
def typeName : Reader Tree :=
  token .typeIdentifier Scan.name

/-- Types in angle brackets. -/
def typeArguments (g : Grammar) : Reader Tree :=
  node .typeArguments (row [single '<', commaList (g.next .type), single '>'])

/-- A type parameter, with its bound and its default. -/
def typeParameter (g : Grammar) : Reader (List Tree) :=
  row [many (oneOf (["const", "in", "out"].map modifierWord)), Reader.next typeName,
    maybe (row [word "extends", g.next .type]), maybe (row [mark "=", g.next .type])]

/-- Type parameters in angle brackets. -/
def typeParameters (g : Grammar) : Reader Tree :=
  node .typeParameters (row [single '<', commaList g.typeParameter, single '>'])

/-- What a function returns: a type, or a statement about the type of a parameter. -/
def resultAscription (g : Grammar) : Reader (List Tree) :=
  let subject := Reader.next (oneOf [token .this (Scan.word "this"), identifier])
  let predicate := row [subject, sameLine, word "is", g.next .type]
  Reader.next (node .typeAscription (row [mark ":",
    oneOf [row [word "asserts", predicate], predicate,
      row [word "asserts", sameLine, subject, notBefore [".", "<", "["]], g.next .type]]))

/-- The parameters of a function and what it returns. -/
def callSignature (g : Grammar) : Reader (List Tree) :=
  row [maybe (Reader.next g.typeParameters), Reader.next g.parameters, maybe g.resultAscription]

/-- What a function type returns. -/
def functionTypeResult (g : Grammar) : Reader (List Tree) :=
  let subject := Reader.next (oneOf [token .this (Scan.word "this"), identifier])
  let predicate := row [subject, sameLine, word "is", g.next .type]
  oneOf [row [word "asserts", predicate], predicate, g.next .type]

/-- The type of a function or of a constructor. -/
def functionType (g : Grammar) : Reader Tree :=
  node .typeNode
    (row [maybe (row [maybe (word "abstract"), word "new"]), maybe (Reader.next g.typeParameters),
      Reader.next g.parameters, mark "=>", g.functionTypeResult])

/-! ## Object types -/

/-- A sign that adds or removes a property of a member. -/
def signedWord (w : Reader (List Tree)) : Reader (List Tree) :=
  row [maybe (oneOf [mark "+", mark "-"]), w]

/-- The key of an index signature, or of a mapped type. -/
def indexKey (g : Grammar) : Reader (List Tree) :=
  oneOf [row [mark "[", Reader.next typeName, word "in", g.next .type,
      maybe (row [word "as", g.next .type]), mark "]"],
    row [mark "[", Reader.next identifier, mark ":", g.next .type, mark "]"]]

/-- A member of an object type. -/
def typeMember (g : Grammar) : Reader Tree :=
  let before (w : String) : Reader (List Tree) :=
    row [word w, provided fun s => s.head?.any fun c =>
      isNameChar c || ['[', '"', '\x27', '#'].contains c]
  node .signature
    (oneOf [
      row [maybe (signedWord (word "readonly")), g.indexKey,
        maybe (signedWord (mark "?")), maybe g.typeAscription],
      row [maybe (word "new"), g.callSignature],
      row [many (oneOf (["readonly", "get", "set", "public", "private", "protected", "static",
          "override", "export"].map before)),
        Reader.next g.memberName, maybe (mark "?"),
        oneOf [g.callSignature, maybe g.typeAscription]]])

/-- What separates the members of an object type. -/
def memberEnd : Reader (List Tree) :=
  oneOf [mark ",", statementEnd]

/-- The type of an object. -/
def objectType (g : Grammar) : Reader Tree :=
  node .objectType
    (row [oneOf [mark "\x7b", row [mark "\x7b", mark "|"]], many (oneOf [mark ",", mark ";"]),
      many (row [Reader.next g.typeMember, memberEnd, many (oneOf [mark ",", mark ";"])]),
      mark "\x7d"])

/-! ## Other types -/

/-- An item of a tuple, perhaps with a name. -/
def tupleItem (g : Grammar) : Reader (List Tree) :=
  oneOf [row [maybe (mark "..."), Reader.next identifier, maybe (mark "?"), mark ":", g.next .type],
    row [maybe (mark "..."), g.next .type, maybe (mark "?")]]

/-- The type of a tuple. -/
def tupleType (g : Grammar) : Reader Tree :=
  node .typeNode (row [mark "[", maybe (commaList g.tupleItem), mark "]"])

/-- A type written as a template. -/
def templateType (g : Grammar) : Reader Tree :=
  let here (r : Reader Tree) : Reader (List Tree) := do return [← r]
  let quote := here (token .mark (Scan.exactly ['\x60']))
  let substitution := node .templateType
    (row [here (token .mark (Scan.exactly ['$', '\x7b'])), g.next .type, mark "\x7d"])
  node .typeNode
    (row [quote,
      many (oneOf [here (token .stringFragment Scan.templateFragment),
        here (token .escapeSequence Scan.escape), here substitution]),
      quote])

/-- A type with a name, perhaps in a namespace and with arguments. -/
def namedType (g : Grammar) : Reader Tree := do
  let qualifier := row [Reader.next identifier, mark "."]
  node .typeNode (row [qualifier, many qualifier, Reader.next typeName,
      maybe (row [sameLine, Reader.next g.typeArguments])])
    <|> (do
      let name ← typeName
      extend .typeNode name (row [sameLine, Reader.next g.typeArguments]) <|> return name)

/-- An import that stands for the type of a module. -/
def importType (g : Grammar) : Reader Tree :=
  node .typeNode (row [word "import", mark "(", g.next .type, mark ")",
    many (row [mark ".", Reader.next typeName]), maybe (Reader.next g.typeArguments)])

/-- The type of a value. -/
def typeQuery (g : Grammar) : Reader Tree :=
  let step := row [oneOf [mark ".", mark "?."],
    Reader.next (oneOf [token .propertyIdentifier Scan.name, privateName])]
  node .typeNode (row [word "typeof",
    oneOf [Reader.next g.importType,
      row [Reader.next (oneOf [token .this (Scan.word "this"), identifier]), many step,
        maybe (row [sameLine, Reader.next g.typeArguments])]]])

/-- A type of one value. -/
def literalType : Reader Tree :=
  oneOf [string, token .number Scan.number,
    node .typeNode (row [oneOf [mark "-", mark "+"], Reader.next (token .number Scan.number)]),
    token .this (Scan.word "this")]

/-- A type without operators. -/
def primaryType (g : Grammar) : Reader Tree :=
  oneOf [g.typeQuery, g.importType, g.objectType, g.tupleType, g.templateType, literalType,
    node .typeNode (row [mark "(", g.next .type, mark ")"]), g.namedType]

/-- A type with the brackets of arrays and indices after it. -/
def postfixType (g : Grammar) : Reader Tree := do
  grow (fun t => extend .typeNode t
    (row [sameLine, mark "[", maybe (g.next .type), mark "]"])) (← g.primaryType)

/-- What follows starts a type. -/
def startsType (s : List Char) : Bool :=
  s.head?.any fun c => isNameChar c || ['[', '\x7b', '(', '"', '\x27', '\x60'].contains c

/-- A type with the words before it that make another type of it. -/
def wordType (g : Grammar) : Reader Tree :=
  let operators := ["keyof", "unique", "readonly"].map fun w => row [word w, provided startsType]
  oneOf [
    node .typeNode (row [word "infer", provided startsType, Reader.next typeName,
      maybe (row [word "extends", Reader.next g.postfixType, notBefore ["?"]])]),
    node .typeNode (row [oneOf operators, many (oneOf operators), Reader.next g.postfixType]),
    g.postfixType]

/-- Types with an operator between them, and perhaps before the first. -/
def typesWith (op : String) (item : Reader Tree) : Reader Tree := do
  let more := row [mark op, Reader.next item]
  node .typeNode (row [more, many more])
    <|> (do
      let first ← item
      extend .typeNode first (row [more, many more]) <|> return first)

/-- Any type. -/
def type (g : Grammar) : Reader Tree :=
  let union := typesWith "|" (typesWith "&" (oneOf [g.functionType, g.wordType]))
  do
    let t ← union
    extend .typeNode t (row [sameLine, word "extends", Reader.next union, mark "?", g.next .type,
      mark ":", g.next .type]) <|> return t

end UiMarkup.TypeScript.Grammar
