import UiMarkup.Markup.Node

/-!
# Statements

The statements that build the document. Each declares an element, changes one or puts one into
another, and is rendered as one or more lines of script.
-/

namespace UiMarkup

/-- A variable of the generated code: a stem and a number that no other variable has. -/
structure Var where
  stem : String
  index : Nat
  deriving Repr, DecidableEq

/-- The name of a variable. -/
def Var.name (x : Var) : String :=
  x.stem ++ toString x.index

/-- A statement of the generated code. Values, handlers and references are script expressions. -/
inductive Statement where
  /-- A comment that names the component. -/
  | comment (component : String)
  /-- Declares a variable for a new element. -/
  | declare (x : Var) (tag : String)
  | setClass (x : Var) (classes : String)
  | setText (x : Var) (value : String)
  /-- Keeps the text equal to a reference, which may be a function. -/
  | bindText (x : Var) (reference : String)
  /-- Assigns style properties, in order. -/
  | setStyles (x : Var) (styles : List (String × String))
  | listen (x : Var) (event handler : String)
  | append (parent child : Var)
  /-- An empty line after a component. -/
  | blank
  deriving Repr, DecidableEq

namespace Statement

/-- The lines of a statement; `keyword` declares variables. -/
def lines (keyword : String) : Statement → List String
  | comment component => ["// " ++ component ++ " component"]
  | declare x tag => [keyword ++ " " ++ x.name ++ " = document.createElement('" ++ tag ++ "')"]
  | setClass x classes => [x.name ++ ".className = '" ++ classes ++ "'"]
  | setText x value => [x.name ++ ".textContent = " ++ value]
  | bindText x reference =>
    ["createEffect(() => \x7b",
     "  " ++ x.name ++ ".textContent = String(typeof " ++ reference ++ " === 'function' ? " ++
       reference ++ "() : " ++ reference ++ ")",
     "\x7d)"]
  | setStyles x styles =>
    ("Object.assign(" ++ x.name ++ ".style, \x7b") ::
      styles.map (fun (key, value) => "  " ++ key ++ ": " ++ value ++ ",") ++ ["\x7d)"]
  | listen x event handler =>
    [x.name ++ ".addEventListener('" ++ event ++ "', " ++ handler ++ ")"]
  | append parent child => [parent.name ++ ".appendChild(" ++ child.name ++ ")"]
  | blank => [""]

end Statement

end UiMarkup
