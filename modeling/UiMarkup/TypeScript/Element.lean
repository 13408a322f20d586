import UiMarkup.TypeScript.Type

/-!
# Elements

Markup elements inside expressions: tags with attributes, and between them text, embedded
expressions and other elements. The names of the tags of an element are not compared.
-/

namespace UiMarkup.TypeScript.Grammar

open Reader

/-- An expression in braces. -/
def embedded (g : Grammar) : Reader Tree :=
  node .embedded
    (row [mark "\x7b",
      maybe (oneOf [Reader.next (node .spread (row [mark "...", g.next .expression])),
        Reader.next g.expressions]),
      mark "\x7d"])

/-- The name of a tag: a name, a name with a namespace, or a member. -/
def tagName : Reader Tree := do
  let name := token .identifier Scan.hyphenatedName
  node .namespacedName (row [Reader.next name, mark ":", Reader.next name])
    <|> (do
      grow (fun t => extend .member (t.withRole .object)
        (row [mark ".", nextAs .property (token .propertyIdentifier Scan.name)])) (← name))

/-- An attribute of a tag. -/
def tagAttribute (g : Grammar) : Reader Tree :=
  let plain := token .propertyIdentifier Scan.hyphenatedName
  let part := token .identifier Scan.hyphenatedName
  let name := oneOf [node .namespacedName (row [Reader.next part, mark ":", Reader.next part]),
    plain]
  let value := oneOf [Reader.next (token .string Scan.attributeString), Reader.next g.embedded,
    g.next .element]
  oneOf [node .tagAttribute (row [Reader.next name, maybe (row [mark "=", value])]), g.embedded]

/-- What stands between the brackets of a tag that has a name. -/
def tagContent (g : Grammar) : Reader (List Tree) :=
  row [Reader.next tagName, maybe (Reader.next g.typeArguments), many (Reader.next g.tagAttribute)]

/-- A piece of the content of an element. It starts right here. -/
def elementContent (g : Grammar) : Reader Tree :=
  oneOf [token .elementText Scan.elementText, token .characterReference Scan.characterReference,
    g.embedded, g.read .element]

/-- What follows an opening tag: the content of the element and its closing tag. -/
def elementRest (g : Grammar) : Reader (List Tree) :=
  let closing := node .closingTag
    (row [single '<', single '/', maybe (Reader.next tagName), single '>'])
  row [many (do return [← g.elementContent]), Reader.next closing]

/-- An element. A tag without a name needs a closing tag. -/
def element (g : Grammar) : Reader Tree := do
  let start := (← get).offset
  let tag ← row [single '<', maybe g.tagContent]
  let close (kind : Kind) (marks : Reader (List Tree)) : Reader Tree := do
    let ts ← marks
    return .node none kind ⟨start, (← get).last⟩ (tag ++ ts)
  let selfClosing :=
    if tag.length ≤ 1 then failure else close .selfClosingTag (row [single '/', single '>'])
  selfClosing <|> (do extend .element (← close .openingTag (single '>')) g.elementRest)

end UiMarkup.TypeScript.Grammar
