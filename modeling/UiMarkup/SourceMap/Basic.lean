import UiMarkup.Json
import UiMarkup.Markup.Place
import UiMarkup.SourceMap.Vlq

/-!
# Source maps

A source map relates each generated line as a whole to the place of the component it was generated
for, or to nothing. A line is a group of four integers: generated column and source index, which are
always zero, and the differences in line and column from the previous mapped line.
-/

namespace UiMarkup

/-- A source map for one source file. -/
structure SourceMap where
  file : String
  source : String
  mappings : String
  deriving Repr, DecidableEq

namespace SourceMap

/-- The group of a mapped line, given the previous mapped place. -/
def group (previous current : Place) : List Char :=
  Vlq.encode 0 ++ Vlq.encode 0 ++ Vlq.encode (current.line - previous.line) ++
    Vlq.encode (current.column - previous.column)

/-- The groups of the lines that follow one mapped to `previous`. -/
def groupsFrom (previous : Place) : List (Option Place) → List (List Char)
  | [] => []
  | none :: lines => [] :: groupsFrom previous lines
  | some place :: lines => group previous place :: groupsFrom place lines

/-- The mappings of generated lines: their groups with semicolons between them. Differences are
counted from the first place of the source. -/
def mappingsOf (lines : List (Option Place)) : String :=
  String.ofList ([';'].intercalate (groupsFrom .start lines))

/-- The source map of generated lines. -/
def build (file source : String) (lines : List (Option Place)) : SourceMap :=
  ⟨file, source, mappingsOf lines⟩

/-- The source map as data. -/
def json (m : SourceMap) : Json :=
  .object [("version", .int 3), ("file", .string m.file), ("sources", .array [.string m.source]),
    ("names", .array []), ("mappings", .string m.mappings)]

end SourceMap

end UiMarkup
