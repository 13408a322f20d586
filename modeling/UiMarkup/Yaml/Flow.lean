import UiMarkup.Yaml.Node
import UiMarkup.Yaml.Scalar

/-!
# Flow nodes

Nodes that are written inline: scalars, aliases, and collections between brackets.
-/

namespace UiMarkup.Yaml

/-- The characters of an anchor or alias name, or of a tag. -/
def nameChars (s : List Char) : List Char :=
  s.takeWhile fun c => !isGap (some c) && !flowIndicators.contains c

/-- The name of an anchor or alias after its indicator. -/
def readName (c : Cursor) : Read String :=
  let name := nameChars c.rest
  if name.isEmpty then none else some (String.ofList name, c.advance name.length)

/-- A tag at its exclamation mark. -/
def readTag (c : Cursor) : Read String :=
  if ['!', '<'].isPrefixOf c.rest then
    let body := c.rest.takeWhile (· != '>')
    if body.length = c.rest.length then none
    else some (String.ofList (body ++ ['>']), c.advance (body.length + 1))
  else
    let name := nameChars c.rest
    some (String.ofList name, c.advance name.length)

/-- An anchor and a tag, in any order, and the content after them. -/
def readProps (flow : Bool) : (fuel : Nat) → Props → Cursor → Read Props
  | 0, props, c => some (props, c)
  | fuel + 1, props, c =>
    match c.peek? with
    | some '&' =>
      if props.anchor.isSome then none
      else
        match readName c.next with
        | none => none
        | some (name, c) =>
          if isGap c.peek? || flow then
            readProps flow fuel { props with anchor := some name } (c.skip flow)
          else none
    | some '!' =>
      if props.tag.isSome then none
      else
        match readTag c with
        | none => none
        | some (tag, c) =>
          if isGap c.peek? || flow then
            readProps flow fuel { props with tag := some tag } (c.skip flow)
          else none
    | _ => some (props, c)

/-- The cursor stands where an entry between flow brackets ends. -/
def atFlowEnd (c : Cursor) : Bool :=
  match c.peek? with
  | none => true
  | some ch => ch == ',' || ch == ']' || ch == '}'

/-- A colon that separates key and value. After a key between braces it needs no gap. -/
def atColon (strict : Bool) (c : Cursor) : Bool :=
  c.peek? == some ':' && (!strict || isGap c.second?)

mutual
/-- A node between flow brackets, or an inline node of a block. -/
def flowNode (indent : Int) (flow : Bool) : (fuel : Nat) → Cursor → Read Node
  | 0, _ => none
  | fuel + 1, c =>
    match readProps flow 3 {} c with
    | none => none
    | some (props, c) => flowContent indent flow fuel props c

/-- The content of a node whose properties were read. -/
def flowContent (indent : Int) (flow : Bool) : (fuel : Nat) → Props → Cursor → Read Node
  | 0, _, _ => none
  | fuel + 1, props, c =>
    if c.atMarker then none
    else
      match c.peek? with
      | some '*' =>
        if props = {} then (readName c.next).map fun (name, c) => (.reference name, c) else none
      | some '[' =>
        (flowItems indent fuel (c.next.skip true)).map fun (items, c) => (.sequence props items, c)
      | some '{' =>
        (flowEntries indent fuel (c.next.skip true)).map fun (entries, c) =>
          (.mapping props entries, c)
      | some '"' | some '\'' =>
        (quotedScalar c).map fun (text, c) => (.scalar props false text, c)
      | _ =>
        if startsPlain flow c then
          (plainScalar flow indent c).map fun (text, c) => (.scalar props true text, c)
        else if flow && (atFlowEnd c || atColon true c) && props ≠ {} then some (.empty props, c)
        else none

/-- The items of a flow sequence, up to its bracket. An item may be a single entry. -/
def flowItems (indent : Int) : (fuel : Nat) → Cursor → Read (List Node)
  | 0, _ => none
  | fuel + 1, c =>
    if c.peek? = some ']' then some ([], c.next)
    else
      let explicit := c.atIndicator '?'
      let start := if explicit then c.next.skip true else c
      let key :=
        if atColon true start || (explicit && atFlowEnd start) then some (.empty {}, start)
        else flowNode indent true fuel start
      match key with
      | none => none
      | some (key, c) =>
        let c := c.skip true
        let item :=
          if atColon true c then
            let c := c.next.skip true
            if atFlowEnd c then some (.pair key (.empty {}), c)
            else (flowNode indent true fuel c).map fun (value, c) => (.pair key value, c)
          else if explicit then some (.pair key (.empty {}), c)
          else some (key, c)
        match item with
        | none => none
        | some (item, c) =>
          let c := c.skip true
          match c.peek? with
          | some ',' =>
            (flowItems indent fuel (c.next.skip true)).map fun (items, c) => (item :: items, c)
          | some ']' => some ([item], c.next)
          | _ => none

/-- The entries of a flow mapping, up to its brace. -/
def flowEntries (indent : Int) : (fuel : Nat) → Cursor → Read (List (Node × Node))
  | 0, _ => none
  | fuel + 1, c =>
    if c.peek? = some '}' then some ([], c.next)
    else
      let explicit := c.atIndicator '?'
      let start := if explicit then c.next.skip true else c
      let key :=
        if atColon true start || (explicit && atFlowEnd start) then some (.empty {}, start)
        else flowNode indent true fuel start
      match key with
      | none => none
      | some (key, c) =>
        let c := c.skip true
        let value :=
          if atColon false c then
            let c := c.next.skip true
            if atFlowEnd c then some (.empty {}, c) else flowNode indent true fuel c
          else some (.empty {}, c)
        match value with
        | none => none
        | some (value, c) =>
          let c := c.skip true
          match c.peek? with
          | some ',' =>
            (flowEntries indent fuel (c.next.skip true)).map fun (entries, c) =>
              ((key, value) :: entries, c)
          | some '}' => some ([(key, value)], c.next)
          | _ => none
end

end UiMarkup.Yaml
