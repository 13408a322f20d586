import UiMarkup.Dom.Descriptor
import UiMarkup.Dom.Effect
import UiMarkup.Dom.Statement

/-!
# Building statements

The statements of a component come in a fixed order: its element with class and text, its styles in
one batch, its listeners, and then each contained component in turn, put into the element as soon as
it is complete. Variables are numbered in the order of their declarations, starting from one.
-/

namespace UiMarkup

/-- A statement with the place of the component that it belongs to, if it is mapped. -/
structure Emitted where
  statement : Statement
  origin : Option Place
  deriving Repr

/-- Style properties in the order in which they were first written. -/
abbrev Styles := List (String × String)

namespace Styles

/-- Writes a property; a property that was written before keeps its position. -/
def write (styles : Styles) (key value : String) : Styles :=
  if styles.any (·.1 == key) then
    styles.map fun (k, v) => if k = key then (k, value) else (k, v)
  else styles ++ [(key, value)]

end Styles

namespace Component

/-- The variable of a component with the given number. -/
def var (c : Component) (index : Nat) : Var :=
  ⟨(Descriptor.ofName c.name).stem, index⟩

/-- The gap that a numeric first argument of a spacing component sets. -/
def gap? (c : Component) : Option String :=
  if (Descriptor.ofName c.name).takesSpacing then
    match c.arguments with
    | .number n :: _ => some (Expr.number n).length
    | _ => none
  else none

/-- The effects of the modifier chain, in order. -/
def effects (registry : Registry) (c : Component) : List Effect :=
  c.modifiers.flatMap registry.effects

/-- The styles of a component: the gap, then all style effects; the last write of a key wins. -/
def styles (registry : Registry) (c : Component) : Styles :=
  (c.effects registry).foldl
    (fun styles effect =>
      match effect with
      | .style key value => styles.write key value
      | .event _ _ => styles)
    (c.gap?.map fun value => ("gap", value)).toList

/-- The events that a component listens to, with their handlers, in order. -/
def events (registry : Registry) (c : Component) : List (String × String) :=
  (c.effects registry).filterMap fun effect =>
    match effect with
    | .style _ _ => none
    | .event name handler => some (name, handler)

/-- The statement that sets the text of a component that bears one. -/
def textStatements (c : Component) (x : Var) : List Statement :=
  if (Descriptor.ofName c.name).bearsText then
    match c.arguments.head? with
    | some (.reference name) => [.bindText x name]
    | content => [.setText x (Expr.content content)]
  else []

/-- The statements of a component itself, without those that it contains. -/
def ownStatements (registry : Registry) (c : Component) (x : Var) : List Statement :=
  let d := Descriptor.ofName c.name
  let styles := c.styles registry
  [.comment c.name, .declare x d.tag, .setClass x d.classes] ++ c.textStatements x ++
    (if styles.isEmpty then [] else [.setStyles x styles]) ++
    (c.events registry).map fun (name, handler) => .listen x name handler

mutual
/-- The statements of a component whose variable gets the given number, and the next number. -/
def emit (registry : Registry) (index : Nat) : Component → List Emitted × Nat
  | ⟨name, arguments, components, modifiers, place⟩ =>
    let c : Component := ⟨name, arguments, components, modifiers, place⟩
    let x := c.var index
    let own := (c.ownStatements registry x).map fun s => ⟨s, some place⟩
    let (inner, next) := emitInto registry place x (index + 1) components
    (own ++ inner ++ [⟨.blank, none⟩], next)

/-- The statements of components that are put into `parent`, numbered from `index` on, and the next
number. -/
def emitInto (registry : Registry) (place : Place) (parent : Var) (index : Nat) :
    List Component → List Emitted × Nat
  | [] => ([], index)
  | c :: cs =>
    let (first, next) := emit registry index c
    let (others, next) := emitInto registry place parent next cs
    (first ++ ⟨.append parent (c.var index), some place⟩ :: others, next)
end

/-- The statements of a row of components, numbered from `index` on. -/
def emitAll (registry : Registry) (index : Nat) : List Component → List Emitted
  | [] => []
  | c :: cs =>
    let (first, next) := emit registry index c
    first ++ emitAll registry next cs

/-- The log entries of the modifiers of a component and of those that it contains. -/
def log (registry : Registry) (c : Component) : List LogEntry :=
  c.preorder.flatMap fun c => c.modifiers.flatMap registry.log

end Component

end UiMarkup
