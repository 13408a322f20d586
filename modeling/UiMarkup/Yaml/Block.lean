import UiMarkup.Yaml.Flow

/-!
# Block nodes

Nodes whose structure follows from indentation. The entries of a mapping and the items of a sequence
start in one column; what belongs to them is indented further, except that a sequence may stand in
the column of the key that it belongs to.
-/

namespace UiMarkup.Yaml

/-- An implicit key: an inline node on one line, before a colon with a gap after it. Returns the key
and the position after the colon. -/
def implicitKey (c : Cursor) : Read Node :=
  let fuel := 4 * c.rest.length + 8
  let key :=
    if c.atIndicator ':' then some (.empty {}, c)
    else
      match readProps false 3 {} c with
      | none => none
      | some (props, inner) =>
        if inner.line ≠ c.line then none
        else if startsPlain false inner then
          let (text, rest) := plainLine false (inner.rest.length + 1) inner.rest
          some (.scalar props true (String.ofList text), inner.jumpTo rest)
        else if inner.atIndicator ':' then some (.empty props, inner)
        else flowContent 0 false fuel props inner
  match key with
  | none => none
  | some (key, stop) =>
    let stop := stop.skipSpaces
    if stop.line = c.line && stop.atIndicator ':' then some (key, stop.next) else none

mutual
/-- The node that belongs to a collection indented by `indent`. `inline` says that a block
collection may start on the current line, and `level` that a sequence may start in the column
`indent`. -/
def blockNode (indent : Int) (inline level : Bool) : (fuel : Nat) → Cursor → Read Node
  | 0, _ => none
  | fuel + 1, c =>
    let content := c.skip false
    let inline := inline || content.line != c.line
    if content.atEnd then some (.empty {}, c)
    else if content.fresh && content.column ≤ indent then
      if level && content.column == indent && content.atIndicator '-' then
        (blockItems content.column true fuel content).map fun (items, c) => (.sequence {} items, c)
      else some (.empty {}, c)
    else blockContent indent inline level fuel {} content

/-- The content of a node at its first character, or after its properties. -/
def blockContent (indent : Int) (inline level : Bool) :
    (fuel : Nat) → Props → Cursor → Read Node
  | 0, _, _ => none
  | fuel + 1, props, c =>
    if c.atIndicator '-' then
      if inline then
        (blockItems c.column false fuel c).map fun (items, c) => (.sequence props items, c)
      else none
    else if c.atIndicator '?' || (implicitKey c).isSome then
      if inline then
        (blockEntries c.column fuel c).map fun (entries, c) => (.mapping props entries, c)
      else none
    else
      match c.peek? with
      | some '|' | some '>' =>
        (blockScalar indent c).map fun (text, c) => (.scalar props false text, c)
      | some '&' | some '!' =>
        match readProps false 3 props c with
        | none => none
        | some (props, content) =>
          let newLine := content.line != c.line
          if content.atEnd then some (.empty props, content)
          else if newLine && content.column ≤ indent then
            if level && content.column == indent && content.atIndicator '-' then
              (blockItems content.column true fuel content).map fun (items, c) =>
                (.sequence props items, c)
            else some (.empty props, content)
          else blockContent indent newLine level fuel props content
      | _ => flowContent indent false fuel props c

/-- The items of a sequence in the given column; `level` says that the column belongs to a mapping,
which goes on after the sequence. -/
def blockItems (column : Nat) (level : Bool) : (fuel : Nat) → Cursor → Read (List Node)
  | 0, _ => none
  | fuel + 1, c =>
    match blockNode column true false fuel c.next with
    | none => none
    | some (item, stop) =>
      let content := stop.skip false
      if content.atEnd then some ([item], stop)
      else if !content.fresh || (column : Nat) < content.column then none
      else if content.column < column then some ([item], stop)
      else if content.atIndicator '-' then
        (blockItems column level fuel content).map fun (items, c) => (item :: items, c)
      else if level then some ([item], stop)
      else none

/-- The entries of a mapping in the given column. -/
def blockEntries (column : Nat) : (fuel : Nat) → Cursor → Read (List (Node × Node))
  | 0, _ => none
  | fuel + 1, c =>
    let entry : Read (Node × Node) :=
      if c.atIndicator '?' then
        match blockNode column true false fuel c.next with
        | none => none
        | some (key, stop) =>
          let content := stop.skip false
          if !content.atEnd && content.column == column && content.atIndicator ':' then
            (blockNode column true false fuel content.next).map fun (value, c) => ((key, value), c)
          else some ((key, .empty {}), stop)
      else
        match implicitKey c with
        | none => none
        | some (key, c) =>
          (blockNode column false true fuel c).map fun (value, c) => ((key, value), c)
    match entry with
    | none => none
    | some (entry, stop) =>
      let content := stop.skip false
      if content.atEnd then some ([entry], stop)
      else if !content.fresh || column < content.column then none
      else if content.column < column then some ([entry], stop)
      else (blockEntries column fuel content).map fun (entries, c) => (entry :: entries, c)
end

end UiMarkup.Yaml
