import UiMarkup.Json
import UiMarkup.Markup.Forest

/-!
# Components as data

Components and diagnostics in the form in which they are handed to other programs. The children of a
component are its arguments and then the components that it contains.
-/

namespace UiMarkup

/-- An argument as data, with numbers written in the given way. -/
def Expr.jsonWith (number : Number → Json) : Expr → Json
  | text s => .object [("type", .string "Literal"), ("value", .string s)]
  | .number n => .object [("type", .string "Literal"), ("value", number n)]
  | reference name => .object [("type", .string "Identifier"), ("name", .string name)]

/-- A modifier as data. -/
def Modifier.jsonWith (number : Number → Json) (m : Modifier) : Json :=
  .object [("name", .string m.name), ("arguments", .array (m.arguments.map (Expr.jsonWith number)))]

namespace Component

mutual
/-- A component as data. -/
def jsonWith (number : Number → Json) : Component → Json
  | ⟨name, arguments, components, modifiers, place⟩ =>
    .object
      [("type", .string "Component"),
       ("name", .string name),
       ("children",
         .array (arguments.map (Expr.jsonWith number) ++ jsonItems number components)),
       ("modifiers", .array (modifiers.map (Modifier.jsonWith number))),
       ("line", .int place.line),
       ("column", .int place.column)]

/-- Components as data, in order. -/
def jsonItems (number : Number → Json) : List Component → List Json
  | [] => []
  | c :: cs => c.jsonWith number :: jsonItems number cs
end

end Component

/-- A diagnostic as data. -/
def Diagnostic.json (d : Diagnostic) : Json :=
  .object
    [("message", .string d.message), ("position", .int d.position), ("line", .int d.place.line),
     ("column", .int d.place.column)]

/-- A parsed file as data. -/
def Forest.json (file : String) (f : Forest) : Json :=
  .object
    [("file", .string file),
     ("nodes", .array (Component.jsonItems Json.number f.nodes)),
     ("diagnostics", .array (f.diagnostics.map Diagnostic.json))]

end UiMarkup
