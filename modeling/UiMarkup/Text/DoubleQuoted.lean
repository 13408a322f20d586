import UiMarkup.Text.Quoted

/-!
# Double-quoted text

The form of string literals in generated code and in exchanged data: a double quote, a backslash and
the control characters below the space are escaped, and everything else stands for itself.
-/

namespace UiMarkup.Text

/-- One character between double quotes. -/
def doubleQuotedChar (c : Char) : List Char :=
  if c = '"' ∨ c = '\\' then ['\\', c]
  else if c = '\n' then ['\\', 'n']
  else if c = '\r' then ['\\', 'r']
  else if c = '\t' then ['\\', 't']
  else if c.toNat = 0x08 then ['\\', 'b']
  else if c.toNat = 0x0c then ['\\', 'f']
  else if c.toNat < 0x20 then '\\' :: 'u' :: hexPadded 4 c.toNat
  else [c]

/-- `s` between double quotes. -/
def doubleQuoted (s : String) : String :=
  String.ofList ('"' :: s.toList.flatMap doubleQuotedChar ++ ['"'])

end UiMarkup.Text
