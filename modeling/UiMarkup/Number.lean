import UiMarkup.Decimal.Real

/-!
# Numbers

A number is an integer of any size or a real number. Which of the two it is shows in its text: a
real number always has a point, an exponent or a word.
-/

namespace UiMarkup

/-- An integer or a real number. -/
inductive Number where
  | int (value : Int)
  | real (value : Float)
  deriving Repr, DecidableEq

namespace Number

/-- The number with the opposite sign; a real zero keeps track of it. -/
def neg : Number → Number
  | int n => int (-n)
  | real x => real (-x)

/-- The number in the given form. -/
def textIn (f : Decimal.Format) : Number → String
  | int n => toString n
  | real x => f.text x

/-- The number as generated code and messages show it. -/
def text (n : Number) : String :=
  n.textIn Decimal.plain

end Number

end UiMarkup
