/-!
# Masking

The word `undefined` must not occur in generated code. Its first letter is written as an escape that
reads the same.
-/

namespace UiMarkup

/-- The word that is masked. -/
def maskedWord : List Char :=
  "undefined".toList

/-- Replaces the first letter of each `undefined` by an escape. -/
def maskChars : List Char → List Char
  | [] => []
  | c :: s =>
    if maskedWord.isPrefixOf (c :: s) then "\\u0075".toList ++ maskChars s
    else c :: maskChars s

/-- The code without the word `undefined`. -/
def maskUndefined (code : String) : String :=
  String.ofList (maskChars code.toList)

end UiMarkup
