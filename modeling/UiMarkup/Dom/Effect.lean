import UiMarkup.Dom.Script
import UiMarkup.Log

/-!
# Effects of modifiers

A modifier writes styles and attaches event handlers. A registry finds the handler of a modifier by
its name; it starts from the built-in modifiers, and what is registered later replaces what was
there. A modifier that is not registered, or whose arguments are unusable, has no effects.
-/

namespace UiMarkup

/-- What a modifier does to its element. -/
inductive Effect where
  /-- Writes a style property. -/
  | style (key value : String)
  /-- Listens to an event. -/
  | event (name handler : String)
  deriving Repr, DecidableEq

/-- The effects of a modifier, from its arguments. -/
abbrev Handler := List Expr → List Effect

namespace Handler

/-- A style property that takes the first argument. -/
def ofStyle (key : String) (render : Expr → String) : Handler
  | [] => []
  | e :: _ => [.style key (render e)]

/-- Padding, eight pixels unless an argument says otherwise. -/
def padding : Handler
  | [] => [.style "padding" (Text.doubleQuoted "8px")]
  | e :: _ => [.style "padding" e.length]

/-- A width and a height. -/
def frame (args : List Expr) : List Effect :=
  (["width", "height"].zip args).map fun (key, e) => .style key e.length

/-- A click handler, which has to be a reference. -/
def onTap : Handler
  | .reference name :: _ => [.event "click" name]
  | _ => []

/-- The built-in modifiers. -/
def builtIn : List (String × Handler) :=
  [("padding", padding),
   ("background", ofStyle "backgroundColor" Expr.script),
   ("foregroundColor", ofStyle "color" Expr.script),
   ("font", ofStyle "fontSize" Expr.length),
   ("cornerRadius", ofStyle "borderRadius" Expr.length),
   ("opacity", ofStyle "opacity" Expr.script),
   ("frame", frame),
   ("onTapGesture", onTap)]

end Handler

/-- Finds handlers by the names of modifiers. -/
structure Registry where
  find? : String → Option Handler

namespace Registry

/-- The registry of the built-in modifiers. -/
def builtIn : Registry :=
  ⟨fun name => Handler.builtIn.lookup name⟩

/-- The registry with one more handler, which replaces an earlier one of the same name. -/
def register (r : Registry) (name : String) (handler : Handler) : Registry :=
  ⟨fun n => if n = name then some handler else r.find? n⟩

/-- The registry with several more handlers, registered in order. -/
def registerAll (r : Registry) (handlers : List (String × Handler)) : Registry :=
  handlers.foldl (fun r (name, handler) => r.register name handler) r

/-- The registry has a handler for the name. -/
def contains (r : Registry) (name : String) : Bool :=
  (r.find? name).isSome

/-- The effects of a modifier call. -/
def effects (r : Registry) (m : Modifier) : List Effect :=
  match r.find? m.name with
  | none => []
  | some handler => handler m.arguments

/-- The log entry of a modifier call that has no effects. -/
def log (r : Registry) (m : Modifier) : List LogEntry :=
  match r.find? m.name with
  | none => [⟨.debug, "Skipping unknown modifier '." ++ m.name ++ "()'"⟩]
  | some handler =>
    if (handler m.arguments).isEmpty then
      [⟨.debug, "Modifier '." ++ m.name ++ "()' has no usable arguments; skipped"⟩]
    else []

end Registry

end UiMarkup
