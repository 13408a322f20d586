import UiMarkup.Path
import UiMarkup.Text.Lowercase

/-!
# Dialects

The two ways to read a text. In one of them a name in angle brackets casts, in the other it starts
an element. The suffix of a file decides.
-/

namespace UiMarkup.TypeScript

/-- A dialect: with casts in angle brackets, or with elements. -/
inductive Dialect where
  | typescript
  | tsx
  deriving Repr, DecidableEq

/-- The name of a dialect. -/
def Dialect.name : Dialect → String
  | typescript => "typescript"
  | tsx => "tsx"

/-- The suffix of a file name in lower case and without its dot. -/
def extensionOf (filename : String) : String :=
  Text.lower (String.ofList ((Path.suffix filename).toList.dropWhile (· == '.')))

/-- The suffixes of files that have casts in angle brackets and no elements. -/
def castingExtensions : List String := ["ts", "mts", "cts"]

/-- The dialect of a file. -/
def Dialect.ofFilename (filename : String) : Dialect :=
  if castingExtensions.contains (extensionOf filename) then .typescript else .tsx

end UiMarkup.TypeScript
