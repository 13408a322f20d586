import UiMarkup.Analysis.Report
import UiMarkup.Filter
import UiMarkup.Host.VirtualModule
import UiMarkup.Options

/-!
# The build plugin

The hooks that a build tool calls. A hook that does not apply to a module gives nothing, and the
build tool goes on without it. What a hook reports is part of its result.
-/

namespace UiMarkup

/-- A module identifier without its query. -/
def stripQuery (id : String) : String :=
  String.ofList (id.toList.takeWhile (· != '?'))

/-- A plugin: its options and the filter that they describe. -/
structure Plugin where
  options : PluginOptions
  filter : PathFilter

/-- Why a plugin cannot be made. -/
inductive PluginError where
  | option (error : OptionError)
  | pattern (error : Glob.PatternError)

/-- A module as the build tool takes it over. `sideEffects` says whether the module does more than
to define things; nothing means that the build tool decides. -/
structure TransformedModule where
  module : GeneratedModule
  sideEffects : Option Bool
  deriving Repr

namespace Plugin

/-- The name under which the build tool lists the plugin. -/
def name : String := "tachui-transform"

/-- The plugin works on sources before other plugins do. -/
def phase : String := "pre"

/-- The plugin with the given options. -/
def ofOptions (matcher : Glob.Matcher) (options : PluginOptions) :
    Except Glob.PatternError Plugin :=
  (PathFilter.ofEntries matcher options.includes options.excludes).map fun filter =>
    ⟨options, filter⟩

/-- The plugin with the options that a build tool hands over, and the warnings about them. -/
def create (matcher : Glob.Matcher) (v : Value) : Except PluginError (Plugin × List LogEntry) :=
  match PluginOptions.ofValue v with
  | .error e => .error (.option e)
  | .ok (options, warnings) =>
    match ofOptions matcher options with
    | .error e => .error (.pattern e)
    | .ok p => .ok (p, warnings)

/-! ## Hooks without a module -/

/-- What is reported when the build tool has read its configuration. -/
def configurationLog (p : Plugin) : List LogEntry :=
  if p.options.dev then [⟨.debug, "tachui plugin loaded in development mode"⟩] else []

/-- What is reported when a build starts. -/
def startLog (p : Plugin) : List LogEntry :=
  [⟨.debug, "tachui build started (include=" ++
    (Value.list (p.options.includes.map .text)).shown ++ ")"⟩]

/-! ## Hooks for virtual modules -/

/-- A virtual module keeps its identifier. -/
def resolve? (id : String) : Option String :=
  (VirtualModule.find? id).map VirtualModule.id

/-- The code of a virtual module. -/
def load? (id : String) : Option String :=
  (VirtualModule.find? id).map VirtualModule.code

/-! ## Hooks for source modules -/

/-- The endings of sources in the extended notation of components. -/
def componentEndings : List String := [".tui.ts", ".tui.tsx"]

/-- A change of the file reloads the whole page. -/
def reloadsOn (file : String) : Bool :=
  let path := (Text.lower (stripQuery file)).toList
  componentEndings.any fun ending => ending.toList.isSuffixOf path

/-- The suffixes of files that may hold components. -/
def sourceSuffixes : List String := [".ts", ".tsx", ".js", ".jsx"]

/-- The plugin transforms the module. -/
def transforms (p : Plugin) (id : String) : Bool :=
  let path := stripQuery id
  let suffix := Path.suffix (String.ofList (Path.normalise path.toList))
  sourceSuffixes.contains (Text.lower suffix) && p.filter.accepts path

/-- What is reported about the concatenations in a source. -/
def concatenationLog (analyzer : Analyzer) (code path : String) : List LogEntry :=
  let result := analyzer code (some path)
  analysisLog (some path) result ++
    match result with
    | .error _ => []
    | .ok [] => []
    | .ok patterns =>
      let r := Report.ofPatterns patterns
      ⟨.info, "tachui concatenation report for " ++ path ++ ": " ++ toString r.total ++
          " patterns (" ++ toString r.statics ++ " static, " ++ toString r.dynamics ++
          " dynamic), ~" ++ r.savings.roundedText ++ "KB savings"⟩ ::
        r.recommendations.map fun m => ⟨.info, "  - " ++ m.message⟩

/-- How the plugin generates the module of a source file. -/
def buildOptions (p : Plugin) (path : String) : BuildOptions :=
  { sourceMaps := p.options.makesSourceMaps
    sourceFile := path
    target := p.options.transform.target }

/-- The module that replaces a source, if the plugin transforms it and it holds components. -/
def transform (p : Plugin) (code id : String) :
    Except OversizedInteger (Option TransformedModule) :=
  if !p.transforms id then .ok none
  else
    let path := stripQuery id
    match parse code path with
    | .error e => .error e
    | .ok forest =>
      if forest.nodes.isEmpty then .ok none
      else
        .ok (some
          { module := generate (p.buildOptions path) .builtIn forest.nodes
            sideEffects := if p.options.transform.treeShaking then some false else none })

/-- What is reported while a source is transformed. -/
def transformLog (analyzer : Analyzer) (p : Plugin) (code id : String) : List LogEntry :=
  if !p.transforms id then []
  else
    let path := stripQuery id
    let survey := Survey.ofSource (.ofFilename path) code
    let concatenations := if p.options.dev then concatenationLog analyzer code path else []
    concatenations ++ survey.log code path ++
      match survey.forest code with
      | .error _ => []
      | .ok forest =>
        forest.diagnostics.map (fun d =>
          ⟨.warning, "tachui: skipped markup in " ++ path ++ ": " ++ d.text⟩) ++
          if forest.nodes.isEmpty then [] else generationLog .builtIn forest.nodes

end Plugin

end UiMarkup
