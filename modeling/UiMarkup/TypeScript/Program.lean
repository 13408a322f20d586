import UiMarkup.TypeScript.Document
import UiMarkup.TypeScript.Statement

/-!
# Programs

The rules tied together. Every reference to a rule goes one level deeper, and a text allows only as
many levels as its length has room for, so reading always ends.
-/

namespace UiMarkup.TypeScript

/-- The production of a rule. -/
def Grammar.production (g : Grammar) : Rule → Reader Tree
  | .statement => g.statement
  | .block => g.block
  | .expression => g.expression
  | .power => g.power
  | .operand => g.operand
  | .newObject => g.newObject
  | .type => g.type
  | .pattern => g.pattern
  | .element => g.element

/-- Reads a rule with a number of levels below it. -/
def readRule (dialect : Dialect) : (levels : Nat) → Rule → Reader Tree
  | 0, _, _ => none
  | levels + 1, r, p => Grammar.production ⟨dialect, readRule dialect levels⟩ r p

/-- The levels that a text of the given length can need. -/
def levelsFor (length : Nat) : Nat :=
  6 * length + 12

/-- Reads a whole text: perhaps a line that names an interpreter, then statements up to the end. -/
def program (dialect : Dialect) (levels : Nat) : Reader (List Tree) := fun p =>
  let interpreter := do return [← Reader.token .comment Scan.interpreterLine]
  let statement := Reader.next (readRule dialect levels .statement)
  match Reader.row [Reader.maybe interpreter, Reader.many statement, Reader.lead] p with
  | some (ts, stop) => if stop.rest.isEmpty then some (ts, stop) else none
  | none => none

/-- The tree of a text, or nothing if the text has a syntax error. -/
def parse (dialect : Dialect) (text : List Char) : Option Tree :=
  match program dialect (levelsFor text.length) (Position.ofText text) with
  | some (ts, stop) => some (.node none .program ⟨0, stop.offset⟩ ts)
  | none => none

/-- The parser that comes with the program. It knows the constructs that ordinary programs use, and
what it does not know is a syntax error. A text with a syntax error becomes a single node that could
not be read. -/
def SourceParser.builtIn : SourceParser := fun dialect text =>
  match parse dialect text with
  | some root => .ok ⟨root, false⟩
  | none => .ok ⟨.node none .error ⟨0, Text.byteLength text⟩ [], true⟩

end UiMarkup.TypeScript
