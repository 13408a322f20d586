import UiMarkup.Number
import UiMarkup.Text.Digit

/-!
# Literals

The values of string and number tokens. A string token is closed if its quote ends it and is not
itself escaped. A number with a point is a real number, one without is an integer; integers are
read only up to a limit on their digits, leading zeros included.
-/

namespace UiMarkup.Literal

/-- The character that an escape stands for; an escape of any other character stands for it. -/
def unescape : Char → Char
  | 'n' => '\n'
  | 't' => '\t'
  | 'r' => '\r'
  | c => c

/-- Decodes what follows an opening quote, or nothing if the quote does not close it. -/
def decodeBody? (quote : Char) : List Char → Option (List Char)
  | [] => none
  | [c] => if c = quote then some [] else none
  | '\\' :: c :: s => (decodeBody? quote s).map (unescape c :: ·)
  | c :: s => (decodeBody? quote s).map (c :: ·)

/-- The value of a string token, or nothing if it is not closed. -/
def decodeString? (text : String) : Option String :=
  match text.toList with
  | [] => none
  | quote :: s => (decodeBody? quote s).map String.ofList

/-- The most digits that an integer literal may have. -/
def maxIntegerDigits : Nat := 4300

/-- The value of a number token, or its number of digits if it is an integer with too many. -/
def readNumber (text : String) : Except Nat Number :=
  let (whole, point) := text.toList.span (· != '.')
  match point with
  | [] =>
    if whole.length ≤ maxIntegerDigits then .ok (.int (Text.ofDigits whole))
    else .error whole.length
  | _ :: fraction =>
    .ok (.real (Decimal.ofScaled (Text.ofDigits (whole ++ fraction)) (-fraction.length)))

end UiMarkup.Literal
