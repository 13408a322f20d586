import UiMarkup.Dom.Module

/-!
# Virtual modules

Modules that exist only while a project is built: the helpers of transformed components, and the
reactive primitives that generated code imports.
-/

namespace UiMarkup

/-- A module that has no file. -/
structure VirtualModule where
  id : String
  code : String
  deriving Repr, DecidableEq

namespace VirtualModule

/-- The package that provides the reactive primitives. -/
def reactiveSource : String := "@tachui/core/reactive"

/-- The reactive primitives in braces, as imports and exports list them. -/
def primitives : String :=
  "\x7b " ++ ", ".intercalate reactivePrimitives ++ " \x7d"

/-- Lines of code as one text, which ends with a line end. -/
def ofLines (lines : List String) : String :=
  String.join (lines.map (· ++ "\n"))

/-- The helpers of transformed components. -/
def runtime : VirtualModule where
  id := "virtual:tachui-runtime"
  code := ofLines
    ["// tachui runtime module: helpers for transformed components",
     "",
     "import " ++ primitives ++ " from '" ++ reactiveSource ++ "'",
     "",
     "export " ++ primitives,
     "",
     "export function createElement(tag, className) \x7b",
     "  const element = document.createElement(tag)",
     "  if (className) \x7b",
     "    element.className = className",
     "  \x7d",
     "  return element",
     "\x7d",
     "",
     "export function mountComponent(element, render) \x7b",
     "  const dispose = render()",
     "  element._tachui_dispose = dispose",
     "  return dispose",
     "\x7d",
     "",
     "export function unmountComponent(element) \x7b",
     "  if (element._tachui_dispose) \x7b",
     "    element._tachui_dispose()",
     "    delete element._tachui_dispose",
     "  \x7d",
     "\x7d",
     "",
     "if (import.meta.hot) \x7b",
     "  import.meta.hot.accept()",
     "  import.meta.hot.dispose(() => \x7b",
     "    document.querySelectorAll('[data-tachui-component]').forEach(unmountComponent)",
     "  \x7d)",
     "\x7d"]

/-- The reactive primitives. -/
def reactive : VirtualModule where
  id := reactiveModule
  code := ofLines
    ["// tachui reactive module: primitives imported by generated code",
     "",
     "export " ++ primitives ++ " from '" ++ reactiveSource ++ "'"]

/-- All virtual modules. -/
def all : List VirtualModule := [runtime, reactive]

/-- The virtual module with an identifier. -/
def find? (id : String) : Option VirtualModule :=
  all.find? fun m => m.id == id

end VirtualModule

end UiMarkup
