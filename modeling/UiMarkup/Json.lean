import UiMarkup.Number
import UiMarkup.Text.DoubleQuoted

/-!
# Exchanged data

The data that the command line and the source maps write: values whose objects keep the order of
their fields. `compact` writes a value on one line, `indented` over several.
-/

namespace UiMarkup

/-- A value of the data exchange format. -/
inductive Json where
  | null
  | bool (b : Bool)
  | number (n : Number)
  | string (s : String)
  | array (items : List Json)
  | object (fields : List (String × Json))
  deriving Inhabited

namespace Json

/-- An integer. -/
def int (n : Int) : Json := number (.int n)

/-- The text of a value that contains no others. -/
def atom : Json → String
  | null => "null"
  | bool true => "true"
  | bool false => "false"
  | number n => n.textIn Decimal.exchange
  | string s => Text.doubleQuoted s
  | array _ => "[]"
  | object _ => "\x7b\x7d"

mutual
/-- The value on one line, with a blank after each comma and colon. -/
def compact : Json → String
  | array items => "[" ++ ", ".intercalate (compactItems items) ++ "]"
  | object fields => "\x7b" ++ ", ".intercalate (compactFields fields) ++ "\x7d"
  | v => v.atom

/-- The items of an array, each on one line. -/
def compactItems : List Json → List String
  | [] => []
  | v :: vs => v.compact :: compactItems vs

/-- The fields of an object, each on one line. -/
def compactFields : List (String × Json) → List String
  | [] => []
  | (key, v) :: fields => (Text.doubleQuoted key ++ ": " ++ v.compact) :: compactFields fields
end

/-- A line end and `depth` levels of two blanks. -/
def newline (depth : Nat) : String :=
  String.ofList ('\n' :: List.replicate (2 * depth) ' ')

/-- Parts between brackets, each on a line of its own; brackets around nothing stay together. -/
def bracketed (depth : Nat) (opening closing : String) (parts : List String) : String :=
  if parts.isEmpty then opening ++ closing
  else
    opening ++ newline (depth + 1) ++ ("," ++ newline (depth + 1)).intercalate parts ++
      newline depth ++ closing

mutual
/-- The value over several lines, inside `depth` levels of others. -/
def indentedAt (depth : Nat) : Json → String
  | array items => bracketed depth "[" "]" (indentedItems (depth + 1) items)
  | object fields => bracketed depth "\x7b" "\x7d" (indentedFields (depth + 1) fields)
  | v => v.atom

/-- The items of an array. -/
def indentedItems (depth : Nat) : List Json → List String
  | [] => []
  | v :: vs => v.indentedAt depth :: indentedItems depth vs

/-- The fields of an object. -/
def indentedFields (depth : Nat) : List (String × Json) → List String
  | [] => []
  | (key, v) :: fields =>
    (Text.doubleQuoted key ++ ": " ++ v.indentedAt depth) :: indentedFields depth fields
end

/-- The value over several lines, indented by two blanks a level. -/
def indented (v : Json) : String :=
  v.indentedAt 0

end Json

end UiMarkup
