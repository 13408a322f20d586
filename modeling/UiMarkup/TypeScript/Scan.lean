import UiMarkup.Text.Blank

/-!
# Tokens of TypeScript

The shapes of the tokens. A scan splits a text into the token that it starts with and the rest, or
fails. What a token means, and whether it may stand where it stands, is not decided here.
-/

namespace UiMarkup.TypeScript

/-- The token at the start of a text and what follows it. -/
abbrev Scan := List Char → Option (List Char × List Char)

/-- The character separates tokens. -/
def isSpace (c : Char) : Bool :=
  let n := c.toNat
  (Text.isBlank c && (0x20 ≤ n || n < 0x1c)) || n == 0xfeff || n == 0x2060 || n == 0x200b

/-- The character ends a line. -/
def isLineEnd (c : Char) : Bool :=
  c == '\n' || c == '\r' || c.toNat == 0x2028 || c.toNat == 0x2029

/-- The ASCII characters that are punctuation. -/
def punctuation : List Char :=
  [':', ';', '\x60', '"', '\x27', '@', '#', '.', ',', '|', '^', '&', '<', '=', '>', '+', '-', '*',
   '/', '\\', '%', '?', '!', '~', '(', ')', '[', ']', '\x7b', '\x7d']

/-- The character may stand inside a name. -/
def isNameChar (c : Char) : Bool :=
  0x20 ≤ c.toNat && !isSpace c && !Text.isBlank c && !punctuation.contains c

/-- The character may start a name. -/
def isNameStart (c : Char) : Bool :=
  isNameChar c && !c.isDigit

namespace Scan

/-- A nonempty run of characters of a class. -/
def run (holds : Char → Bool) : Scan := fun s =>
  match s.takeWhile holds with
  | [] => none
  | token => some (token, s.dropWhile holds)

/-- The given text. -/
def exactly (token : List Char) : Scan := fun s =>
  if token.isPrefixOf s then some (token, s.drop token.length) else none

/-- One scan after another, as one token. -/
def andThen (first second : Scan) : Scan := fun s =>
  match first s with
  | none => none
  | some (a, s) =>
    match second s with
    | none => none
    | some (b, s) => some (a ++ b, s)

/-- The scan, or nothing. -/
def optional (scan : Scan) : Scan := fun s =>
  match scan s with
  | none => some ([], s)
  | found => found

/-- The first of two scans that succeeds. -/
def orElse (first second : Scan) : Scan := fun s =>
  match first s with
  | none => second s
  | found => found

/-! ## Names -/

/-- The rest of a name; a character may be written as an escape. -/
def nameRest : List Char → List Char × List Char
  | '\\' :: 'u' :: s =>
    let (name, rest) := nameRest s
    ('\\' :: 'u' :: name, rest)
  | c :: s =>
    if isNameChar c then
      let (name, rest) := nameRest s
      (c :: name, rest)
    else ([], c :: s)
  | [] => ([], [])

/-- A name. -/
def name : Scan := fun s =>
  if s.head?.any isNameStart || ['\\', 'u'].isPrefixOf s then some (nameRest s) else none

/-- The name of an element or an attribute, which may hold hyphens. -/
def hyphenatedName : Scan := fun s =>
  if s.head?.any isNameStart then run (fun c => isNameChar c || c == '-') s else none

/-! ## Literals -/

/-- Digits with separators; the first character is a digit. -/
def digits : Scan := fun s =>
  if s.head?.any Char.isDigit then run (fun c => c.isDigit || c == '_') s else none

/-- An exponent. -/
def exponent : Scan := fun s =>
  match s with
  | e :: s =>
    if e = 'e' ∨ e = 'E' then
      match s with
      | sign :: s' =>
        if sign = '+' ∨ sign = '-' then (digits s').map fun (d, r) => (e :: sign :: d, r)
        else (digits s).map fun (d, r) => (e :: d, r)
      | [] => none
    else none
  | [] => none

/-- A number in another base, with its mark. -/
def basedNumber : Scan := fun s =>
  match s with
  | '0' :: base :: s =>
    if ['x', 'X', 'o', 'O', 'b', 'B'].contains base then
      (run (fun c => c.isAlphanum || c == '_') s).map fun (d, r) => ('0' :: base :: d, r)
    else none
  | _ => none

/-- A decimal number: a whole part, a fraction or both, and an exponent; a whole number may end with
the mark of big integers. -/
def decimalNumber : Scan :=
  orElse (andThen digits
      (orElse (exactly ['n'])
        (andThen (optional (andThen (exactly ['.']) (optional digits))) (optional exponent))))
    (andThen (exactly ['.']) (andThen digits (optional exponent)))

/-- A number. -/
def number : Scan :=
  orElse basedNumber decimalNumber

/-- The rest of a string up to and including its closing quote. -/
def stringRest (quote : Char) : List Char → Option (List Char × List Char)
  | [] => none
  | '\\' :: c :: s => (stringRest quote s).map fun (body, rest) => ('\\' :: c :: body, rest)
  | c :: s =>
    if c = quote then some ([c], s)
    else if c = '\n' ∨ c = '\\' then none
    else (stringRest quote s).map fun (body, rest) => (c :: body, rest)

/-- A string in single or double quotes, on one line. -/
def string : Scan := fun s =>
  match s with
  | c :: s =>
    if c = '"' ∨ c = '\x27' then (stringRest c s).map fun (body, rest) => (c :: body, rest) else none
  | [] => none

/-- The rest of a regular expression up to and including its closing slash. A slash within brackets
does not close it. -/
def regexRest (bracketed : Bool) : List Char → Option (List Char × List Char)
  | [] => none
  | '\\' :: c :: s =>
    if c = '\n' then none
    else (regexRest bracketed s).map fun (body, rest) => ('\\' :: c :: body, rest)
  | c :: s =>
    if c = '\n' then none
    else if c = '/' ∧ bracketed = false then some ([c], s)
    else
      (regexRest (c == '[' || (bracketed && c != ']')) s).map fun (body, rest) => (c :: body, rest)

/-- A regular expression with its flags. -/
def regex : Scan := fun s =>
  match s with
  | '/' :: c :: s =>
    if c = '/' ∨ c = '*' then none
    else
      (andThen (regexRest false) (optional (run Char.isAlpha)) (c :: s)).map
        fun (body, rest) => ('/' :: body, rest)
  | _ => none

/-! ## Templates and element texts -/

/-- Characters of a template, as far as they stand for themselves. -/
def templateChars : List Char → List Char × List Char
  | [] => ([], [])
  | '$' :: '\x7b' :: s => ([], '$' :: '\x7b' :: s)
  | c :: s =>
    if c = '\x60' ∨ c = '\\' then ([], c :: s)
    else
      let (body, rest) := templateChars s
      (c :: body, rest)

/-- A nonempty run of characters of a template. -/
def templateFragment : Scan := fun s =>
  match templateChars s with
  | ([], _) => none
  | found => some found

/-- A character is a hexadecimal digit. -/
def isHex (c : Char) : Bool :=
  c.isDigit || ('a' ≤ c && c ≤ 'f') || ('A' ≤ c && c ≤ 'F')

/-- A number of hexadecimal digits. -/
def hexDigits (n : Nat) : Scan := fun s =>
  let token := s.take n
  if token.length = n ∧ token.all isHex then some (token, s.drop n) else none

/-- What follows the backslash of an escape sequence. -/
def escapeRest : Scan := fun s =>
  match s with
  | [] => none
  | 'x' :: s => (hexDigits 2 s).map fun (d, r) => ('x' :: d, r)
  | 'u' :: '\x7b' :: s =>
    (andThen (run isHex) (exactly ['\x7d']) s).map fun (d, r) => ('u' :: '\x7b' :: d, r)
  | 'u' :: s => (hexDigits 4 s).map fun (d, r) => ('u' :: d, r)
  | '\r' :: '\n' :: s => some (['\r', '\n'], s)
  | c :: s =>
    let isOctal (c : Char) : Bool := '0' ≤ c && c ≤ '7'
    if isOctal c then
      let token := ((c :: s).take 3).takeWhile isOctal
      some (token, (c :: s).drop token.length)
    else some ([c], s)

/-- An escape sequence. -/
def escape : Scan :=
  andThen (exactly ['\\']) escapeRest

/-- A run of text between elements. -/
def elementText : Scan :=
  run fun c => c != '<' && c != '>' && c != '\x7b' && c != '\x7d' && c != '&'

/-- A reference to a character in the text of an element. -/
def characterReference : Scan :=
  andThen (exactly ['&']) (andThen (run fun c => c.isAlphanum || c == '#') (exactly [';']))

/-- The value of an attribute in quotes, which may span lines. -/
def attributeString : Scan := fun s =>
  match s with
  | quote :: s =>
    if quote = '"' ∨ quote = '\x27' then
      match s.dropWhile (· != quote) with
      | [] => none
      | _ :: rest => some (quote :: s.takeWhile (· != quote) ++ [quote], rest)
    else none
  | [] => none

/-! ## Operators -/

/-- The operators and punctuation marks, a longer one before its beginnings. -/
def operators : List String :=
  [">>>=", "...", "===", "!==", "**=", "<<=", ">>=", ">>>", "&&=", "||=", "??=", "=>", "==", "!=",
   "<=", ">=", "&&", "||", "??", "?.", "++", "--", "+=", "-=", "*=", "/=", "%=", "&=", "|=", "^=",
   "<<", ">>", "**", "\x7b", "\x7d", "(", ")", "[", "]", ";", ",", "<", ">", "+", "-", "*", "/",
   "%", "&", "|", "^", "!", "~", "?", ":", "=", ".", "@"]

/-- The longest operator at the start of a text. A question mark before a number does not take the
point of the number with it. -/
def operator? (s : List Char) : Option String :=
  match s with
  | '?' :: '.' :: d :: _ => if d.isDigit then some "?" else some "?."
  | s => operators.find? fun op => op.toList.isPrefixOf s

/-- The given operator, unless it is the beginning of a longer one. -/
def operator (op : String) : Scan := fun s =>
  if operator? s = some op then exactly op.toList s else none

/-- The given word, unless it is the beginning of a longer name. -/
def word (w : String) : Scan := fun s =>
  match name s with
  | some (token, rest) => if token = w.toList then some (token, rest) else none
  | none => none

/-! ## Comments -/

/-- The rest of a block comment up to and including its end. -/
def blockCommentRest : List Char → Option (List Char × List Char)
  | [] => none
  | '*' :: '/' :: s => some (['*', '/'], s)
  | c :: s => (blockCommentRest s).map fun (body, rest) => (c :: body, rest)

/-- A comment. -/
def comment : Scan := fun s =>
  match s with
  | '/' :: '/' :: s =>
    some ('/' :: '/' :: s.takeWhile (!isLineEnd ·), s.dropWhile (!isLineEnd ·))
  | '/' :: '*' :: s => (blockCommentRest s).map fun (body, rest) => ('/' :: '*' :: body, rest)
  | _ => none

/-- The line that names the interpreter of a program. -/
def interpreterLine : Scan := fun s =>
  match s with
  | '#' :: '!' :: _ => some (s.takeWhile (!isLineEnd ·), s.dropWhile (!isLineEnd ·))
  | _ => none

end Scan

end UiMarkup.TypeScript
