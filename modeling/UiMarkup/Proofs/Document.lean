import UiMarkup.Dom.Build
import UiMarkup.Proofs.StringLiteral

/-!
# Documents under construction

What statements do, and what components mean, as trees of elements.

* `step` and `run` execute statements on the trees that exist so far. A statement is stuck if it
  declares a variable twice, uses one that is not declared, sets a text that is no string literal,
  or puts an element anywhere but into another tree.
* `Component.document` is the tree that a component describes. It is stated on the component alone:
  its descriptor, its first argument and the effects of its modifiers.
-/

namespace UiMarkup

namespace Dom

/-- The text of an element: none was set, a fixed one, or one kept equal to a reference. -/
inductive Content where
  | none
  | fixed (text : String)
  | following (reference : String)

/-- An element without its children. Style values, handlers and references are script. -/
structure Element where
  tag : String
  classes : String
  content : Content
  styles : String → Option String
  listeners : List (String × String)

/-- A new element. -/
def Element.ofTag (tag : String) : Element :=
  ⟨tag, "", .none, fun _ => Option.none, []⟩

/-- Writes style properties one after the other. -/
def assign (styles : String → Option String) (pairs : List (String × String)) :
    String → Option String :=
  pairs.foldl (fun styles (key, value) => fun k => if k = key then some value else styles k) styles

/-- A tree with a value at each node. -/
structure ElementTree (α : Type) where
  value : α
  children : List (ElementTree α)

/-- The trees that statements work on, in the order of creation. Each element has the name of the
variable that holds it. -/
abbrev Workspace := List (ElementTree (String × Element))

namespace ElementTree

mutual
/-- The tree without the names of variables. -/
def erase : ElementTree (String × Element) → ElementTree Element
  | ⟨(_, element), children⟩ => ⟨element, eraseAll children⟩

/-- Trees without the names of variables. -/
def eraseAll : Workspace → List (ElementTree Element)
  | [] => []
  | t :: ts => t.erase :: eraseAll ts
end

mutual
/-- The variables of a tree. -/
def names : ElementTree (String × Element) → List String
  | ⟨(name, _), children⟩ => name :: namesAll children

/-- The variables of trees. -/
def namesAll : Workspace → List String
  | [] => []
  | t :: ts => t.names ++ namesAll ts
end

mutual
/-- Changes the node that the variable `x` holds. -/
def alter (x : String) (f : ElementTree (String × Element) → ElementTree (String × Element)) :
    ElementTree (String × Element) → ElementTree (String × Element)
  | ⟨(name, element), children⟩ =>
    if name = x then f ⟨(name, element), children⟩
    else ⟨(name, element), alterAll x f children⟩

/-- Changes the node that the variable `x` holds, in each of several trees. -/
def alterAll (x : String) (f : ElementTree (String × Element) → ElementTree (String × Element)) :
    Workspace → Workspace
  | [] => []
  | t :: ts => t.alter x f :: alterAll x f ts
end

end ElementTree

open ElementTree

/-- Changes the element of a declared variable. -/
def update (x : Var) (f : Element → Element) (w : Workspace) : Option Workspace :=
  if x.name ∈ namesAll w then
    some (alterAll x.name (fun t => ⟨(t.value.1, f t.value.2), t.children⟩) w)
  else none

/-- Makes a tree of the workspace the last child of a node of another tree. -/
def adopt (parent child : Var) (w : Workspace) : Option Workspace :=
  match w.find? (·.value.1 = child.name) with
  | none => none
  | some t =>
    let others := w.filter (·.value.1 ≠ child.name)
    if parent.name ∈ namesAll others then
      some (alterAll parent.name (fun p => ⟨p.value, p.children ++ [t]⟩) others)
    else none

/-- Executes a statement, if it is not stuck. -/
def step (w : Workspace) : Statement → Option Workspace
  | .comment _ => some w
  | .declare x tag =>
    if x.name ∈ namesAll w then none else some (w ++ [⟨(x.name, .ofTag tag), []⟩])
  | .setClass x classes => update x (fun e => { e with classes }) w
  | .setText x value =>
    match Text.literalValue? value with
    | none => none
    | some text => update x (fun e => { e with content := .fixed text }) w
  | .bindText x reference => update x (fun e => { e with content := .following reference }) w
  | .setStyles x pairs => update x (fun e => { e with styles := assign e.styles pairs }) w
  | .listen x event handler =>
    update x (fun e => { e with listeners := e.listeners ++ [(event, handler)] }) w
  | .append parent child => adopt parent child w
  | .blank => some w

/-- Executes statements in order, if none is stuck. -/
def run (w : Workspace) (statements : List Statement) : Option Workspace :=
  statements.foldlM step w

/-- A variable is declared once. -/
example : run [] [.declare ⟨"element", 1⟩ "div", .declare ⟨"element", 1⟩ "div"] = none := rfl

/-- A variable is declared before it is used. -/
example : run [] [.declare ⟨"element", 1⟩ "div", .append ⟨"element", 1⟩ ⟨"element", 2⟩] = none :=
  rfl

end Dom

/-! ## The meaning of components -/

namespace Effect

/-- The style property that an effect writes, with its value. -/
def style? : Effect → Option (String × String)
  | style key value => some (key, value)
  | event _ _ => none

/-- The event that an effect listens to, with its handler. -/
def event? : Effect → Option (String × String)
  | style _ _ => none
  | event name handler => some (name, handler)

end Effect

namespace Component

open Dom

/-- The text that the first argument gives to a component that bears one. -/
def shownText (c : Component) : Content :=
  if (Descriptor.ofName c.name).bearsText then
    match c.arguments with
    | [] => .fixed ""
    | .text s :: _ => .fixed s
    | .number n :: _ => .fixed n.text
    | .reference name :: _ => .following name
  else .none

/-- The gap that a number sets as the first argument of a component that takes spacing. -/
def gapWrites (c : Component) : List (String × String) :=
  if (Descriptor.ofName c.name).takesSpacing then
    match c.arguments with
    | .number n :: _ => [("gap", Text.doubleQuoted (n.text ++ "px"))]
    | _ => []
  else []

/-- All writes of style properties: the gap, then those of the modifiers. -/
def styleWrites (registry : Registry) (c : Component) : List (String × String) :=
  c.gapWrites ++ (c.effects registry).filterMap Effect.style?

/-- The element of a component. Of several writes of a style property the last one counts. -/
def element (registry : Registry) (c : Component) : Element where
  tag := (Descriptor.ofName c.name).tag
  classes := (Descriptor.ofName c.name).classes
  content := c.shownText
  styles := fun key => (c.styleWrites registry).reverse.lookup key
  listeners := (c.effects registry).filterMap Effect.event?

mutual
/-- The tree of a component, with those of the components that it contains. -/
def document (registry : Registry) : Component → ElementTree Element
  | ⟨name, arguments, components, modifiers, place⟩ =>
    ⟨element registry ⟨name, arguments, components, modifiers, place⟩,
      documents registry components⟩

/-- The trees of components, in order. -/
def documents (registry : Registry) : List Component → List (ElementTree Element)
  | [] => []
  | c :: cs => document registry c :: documents registry cs
end

end Component

end UiMarkup
