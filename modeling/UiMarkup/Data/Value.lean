import UiMarkup.Number
import UiMarkup.Text.Quoted

/-!
# Configuration values

The values that a configuration file or a host hands over: scalars, lists and mappings. A mapping
keeps the order of its entries, and its keys may be any values.
-/

namespace UiMarkup

/-- A configuration value. -/
inductive Value where
  | null
  | bool (b : Bool)
  | number (n : Number)
  | text (s : String)
  | list (items : List Value)
  | map (entries : List (Value × Value))
  deriving Repr, Inhabited

namespace Value

/-- An integer. -/
def int (n : Int) : Value := number (.int n)

/-- The kind of a value, as messages call it. -/
def kindName : Value → String
  | null => "NoneType"
  | bool _ => "bool"
  | number (.int _) => "int"
  | number (.real _) => "float"
  | text _ => "str"
  | list _ => "list"
  | map _ => "dict"

/-- The value is nothing, false, zero or empty. -/
def isFalsy : Value → Bool
  | null => true
  | bool b => !b
  | number (.int n) => n == 0
  | number (.real x) => x == 0
  | text s => s.isEmpty
  | list items => items.isEmpty
  | map entries => entries.isEmpty

mutual
/-- The value as messages show it. -/
def shown : Value → String
  | null => "None"
  | bool true => "True"
  | bool false => "False"
  | number n => n.text
  | text s => Text.quoted s
  | list items => "[" ++ ", ".intercalate (shownItems items) ++ "]"
  | map entries => "\x7b" ++ ", ".intercalate (shownEntries entries) ++ "\x7d"

/-- The items of a list. -/
def shownItems : List Value → List String
  | [] => []
  | v :: vs => v.shown :: shownItems vs

/-- The entries of a mapping. -/
def shownEntries : List (Value × Value) → List String
  | [] => []
  | (key, v) :: entries => (key.shownKey ++ ": " ++ v.shown) :: shownEntries entries

/-- A key of a mapping; a list that serves as one stands in parentheses. -/
def shownKey : Value → String
  | null => "None"
  | bool true => "True"
  | bool false => "False"
  | number n => n.text
  | text s => Text.quoted s
  | list [item] => "(" ++ item.shown ++ ",)"
  | list items => "(" ++ ", ".intercalate (shownItems items) ++ ")"
  | map entries => "\x7b" ++ ", ".intercalate (shownEntries entries) ++ "\x7d"
end

/-- The text that a value stands for where a text is wanted: a text itself, anything else as it is
shown. -/
def asText : Value → String
  | text s => s
  | v => v.shown

/-- The text that a key stands for. -/
def keyText : Value → String
  | text s => s
  | v => v.shownKey

/-- The value under a text key. -/
def get? (entries : List (Value × Value)) (key : String) : Option Value :=
  match entries with
  | [] => none
  | (.text k, v) :: rest => if k = key then some v else get? rest key
  | _ :: rest => get? rest key

end Value

end UiMarkup
