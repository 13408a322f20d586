import UiMarkup.Text.Word

/-!
# Word boundaries

Whether a text holds something that starts at the beginning of a word, and whether a word in it
stands alone.
-/

namespace UiMarkup.Text

/-- A property of the text from some word's first character on. `inWord` says that the character
before is part of a word. -/
def someWordStart (holds : List Char → Bool) (inWord : Bool) : List Char → Bool
  | [] => false
  | c :: s => (!inWord && isWord c && holds (c :: s)) || someWordStart holds (isWord c) s

/-- The text starts with the word, and the word ends there. -/
def startsWithWord (word s : List Char) : Bool :=
  word.isPrefixOf s && !(s.drop word.length).head?.any isWord

/-- One of the words stands alone somewhere in the text. -/
def mentionsWord (words : List String) (s : List Char) : Bool :=
  someWordStart (fun rest => words.any fun w => startsWithWord w.toList rest) false s

end UiMarkup.Text
