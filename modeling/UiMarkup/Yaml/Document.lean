import UiMarkup.Yaml.Block
import UiMarkup.Yaml.Resolve

/-!
# YAML documents

A text holds at most one document, which may stand between markers and after directives. `load`
gives its value; a text without a document has the value null.
-/

namespace UiMarkup.Yaml

/-- The character may occur in a YAML text. -/
def isAllowed (c : Char) : Bool :=
  let n := c.toNat
  n == 0x09 || n == 0x0a || n == 0x0d || (0x20 ≤ n && n ≤ 0x7e) || n == 0x85 ||
    (0xa0 ≤ n && n ≤ 0xfffd) || 0x10000 ≤ n

/-- A directive that names the version of the language. -/
def isVersionDirective (line : List Char) : Bool :=
  "%YAML".toList.isPrefixOf line

/-- The version is one that can be read. -/
def isReadableVersion (line : List Char) : Bool :=
  let argument := (line.drop 5).dropWhile (· == ' ')
  let (major, rest) := argument.span Char.isDigit
  let (minor, rest) := (rest.drop 1).span Char.isDigit
  (line.drop 5).head? == some ' ' && major == ['1'] && argument[1]? == some '.' &&
    !minor.isEmpty && isGap rest.head?

/-- Reads directives up to the document marker. Returns whether there were any. -/
def directives : (fuel : Nat) → (version found : Bool) → Cursor → Read Bool
  | 0, _, _, _ => none
  | fuel + 1, version, found, c =>
    let c := c.skip false
    if c.column == 0 && c.peek? == some '%' then
      let line := c.rest.takeWhile (· != '\n')
      if isVersionDirective line then
        if version || !isReadableVersion line then none
        else directives fuel true true (c.advance line.length)
      else directives fuel version true (c.advance line.length)
    else some (found, c)

/-- Skips markers that end documents. -/
def skipEnds : (fuel : Nat) → Cursor → Cursor
  | 0, c => c
  | fuel + 1, c =>
    let content := c.skip false
    if content.atMarker && content.peek? == some '.' then skipEnds fuel (content.advance 3)
    else content

/-- The root node of the only document, if there is one. -/
def document? (s : List Char) : Option (Option Node) :=
  let fuel := 8 * s.length + 16
  let start := skipEnds fuel (Cursor.ofText s)
  match directives fuel false false start with
  | none => none
  | some (found, c) =>
    if c.rest.isEmpty then if found then none else some none
    else if found && !c.atMarker then none
    else
      let explicit := c.atMarker
      let c := if explicit then c.advance 3 else c
      match blockNode (-1) (!explicit) false fuel c with
      | none => none
      | some (root, stop) =>
        let content := stop.skip false
        let last := skipEnds fuel content
        if !content.atEnd || !last.rest.isEmpty then none else some (some root)

/-- The text with the control character that asks for a next line written as a line end. -/
def plainLineEnds (s : List Char) : List Char :=
  s.map fun c => if c.toNat == 0x85 then '\n' else c

/-- The value of a YAML text, or nothing if the text is not valid. A byte order mark in front does
not count. -/
def load (text : String) : Option Value :=
  let s := text.toList
  let s := if s.head?.any (·.toNat == 0xfeff) then s.tail else s
  if !s.all isAllowed then none
  else
    match document? (plainLineEnds s) with
    | none => none
    | some none => some .null
    | some (some root) => (resolve [] root).map Prod.fst

end UiMarkup.Yaml
