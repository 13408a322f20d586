import UiMarkup.Dom.Build
import UiMarkup.Dom.Mask
import UiMarkup.Markup.Forest
import UiMarkup.Path
import UiMarkup.SourceMap.Basic

/-!
# Generated modules

A generated module imports the reactive primitives and then builds its components. On request it
comes with a source map.

Generation sets no limit to the nesting of components and to the digits of integers. Components that
were read from a source keep within `maxDepth` and `Literal.maxIntegerDigits`; of others, built by
hand and beyond these, `generate` gives the module they would have if nothing limited it.
-/

namespace UiMarkup

/-- The module that the reactive primitives are imported from. -/
def reactiveModule : String := "virtual:tachui-reactive"

/-- The reactive primitives, in the order of their imports. -/
def reactivePrimitives : List String := ["createSignal", "createEffect", "createComputed"]

/-- How a module is generated. -/
structure BuildOptions where
  sourceMaps : Bool := false
  sourceFile : String := ""
  target : String := "es2022"
  deriving Repr, DecidableEq

/-- The keyword that declares variables: old targets know only one. -/
def BuildOptions.keyword (o : BuildOptions) : String :=
  if ["es3", "es5"].contains (Text.lower o.target) then "var" else "const"

/-- Generated code, and its source map if one was asked for. -/
structure GeneratedModule where
  code : String
  map : Option SourceMap
  deriving Repr

/-- A generated line with the place it is mapped to. -/
abbrev GeneratedLine := String × Option Place

/-- The lines at the top of every generated module. -/
def importLines : List GeneratedLine :=
  reactivePrimitives.map (fun name =>
    ("import \x7b " ++ name ++ " \x7d from '" ++ reactiveModule ++ "'", none)) ++ [("", none)]

/-- The lines of emitted statements. -/
def Emitted.lines (keyword : String) (e : Emitted) : List GeneratedLine :=
  (e.statement.lines keyword).map fun line => (line, e.origin)

/-- The lines of a generated module. -/
def moduleLines (keyword : String) (registry : Registry) (nodes : List Component) :
    List GeneratedLine :=
  importLines ++ (Component.emitAll registry 1 nodes).flatMap (Emitted.lines keyword)

/-- The name of the generated file: that of the source file with an ending of its own. -/
def generatedName (sourceFile : String) : String :=
  if sourceFile.isEmpty then "" else Path.name sourceFile ++ ".js"

/-- Generates the module of a component forest. -/
def generate (options : BuildOptions) (registry : Registry) (nodes : List Component) :
    GeneratedModule :=
  let lines := moduleLines options.keyword registry nodes
  { code := maskUndefined ("\n".intercalate (lines.map Prod.fst))
    map :=
      if options.sourceMaps then
        some (.build (generatedName options.sourceFile) options.sourceFile (lines.map Prod.snd))
      else none }

/-- The log entries of a generation. -/
def generationLog (registry : Registry) (nodes : List Component) : List LogEntry :=
  let lines := moduleLines "" registry nodes
  nodes.flatMap (Component.log registry) ++
    [⟨.debug, "Generated " ++ toString lines.length ++ " lines for " ++ toString nodes.length ++
      " top-level components"⟩]

/-- Reads a source and generates its module; a source without components has none. -/
def compile (source filename : String) (options : BuildOptions) :
    Except OversizedInteger (Option GeneratedModule) :=
  match parse source filename with
  | .error e => .error e
  | .ok forest =>
    .ok (if forest.nodes.isEmpty then none
      else some (generate options .builtIn forest.nodes))

end UiMarkup
