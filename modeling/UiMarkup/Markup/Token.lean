import UiMarkup.Text.Quoted

/-!
# Tokens

A token is a piece of source text with its kind and its offset, counted in characters. A token list
ends with an end token whose offset is the length of the text.
-/

namespace UiMarkup

/-- The kinds of tokens. A character that starts no other token is an unknown token. -/
inductive TokenKind where
  | identifier
  | string
  | template
  | number
  | symbol
  | unknown
  | eof
  deriving Repr, DecidableEq

/-- The name of a token kind. -/
def TokenKind.name : TokenKind → String
  | identifier => "IDENTIFIER"
  | string => "STRING"
  | template => "TEMPLATE"
  | number => "NUMBER"
  | symbol => "SYMBOL"
  | unknown => "UNKNOWN"
  | eof => "EOF"

/-- A piece of source text. -/
structure Token where
  kind : TokenKind
  text : String
  position : Nat
  deriving Repr, DecidableEq

namespace Token

/-- The token that ends a text of the given length. -/
def endOfText (length : Nat) : Token :=
  ⟨.eof, "", length⟩

/-- `t` is the given symbol. -/
def isSymbol (t : Token) (s : String) : Bool :=
  t.kind == .symbol && t.text == s

/-- `t` opens an argument list or a block. -/
def opensCall (t : Token) : Bool :=
  t.isSymbol "(" || t.isSymbol "\x7b"

/-- `t` is an identifier that starts with a capital letter. -/
def isCapitalised (t : Token) : Bool :=
  t.kind == .identifier && t.text.toList.head?.any Char.isUpper

/-- The token in words, with its text quoted. -/
def describe (t : Token) : String :=
  "Token(" ++ t.kind.name ++ ", " ++ Text.quoted t.text ++ ", pos=" ++ toString t.position ++ ")"

end Token

end UiMarkup
