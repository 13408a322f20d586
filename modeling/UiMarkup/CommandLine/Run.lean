import UiMarkup.CommandLine.Command
import UiMarkup.Dom.Module
import UiMarkup.Glob.Match
import UiMarkup.Markup.Exchange
import UiMarkup.TypeScript.Program

/-!
# Running commands

A command is a function of the files that it sees: it gives a status, what it writes to the two
outputs, and the files that it writes. A user's mistake ends it with the status 2 and a message.
-/

namespace UiMarkup

/-- The tools that come with the program. -/
def ScanTools.builtIn : ScanTools :=
  ⟨.builtIn, UiMarkup.analyze .builtIn⟩

namespace CommandLine

/-- What a command runs in. -/
structure Session where
  /-- The absolute path of the working directory. -/
  directory : String
  /-- What the working directory holds. -/
  files : List FileTree
  /-- What the working directory does not tell. -/
  surroundings : Surroundings := {}
  /-- Why a text cannot be encoded, if it cannot: the names of files and the arguments may stand for
  bytes that are no characters, and a text that was put together from them may hold them. -/
  unencodable? : String → Option String := fun _ => none
  /-- What projects are scanned with. -/
  tools : ScanTools := .builtIn
  /-- Whether details are reported too. -/
  debug : Bool := false
  /-- The milliseconds that the analysis of a file took, as far as they were measured. -/
  elapsed : String → Nat := fun _ => 0

/-- How a command ends. -/
inductive Ending where
  | status (code : Nat)
  /-- The system does not find, read or write a file. -/
  | fileError (error : FileError)
  /-- A glob cannot be used. -/
  | patternError (error : Glob.PatternError)

/-- How the module of a file is generated. -/
def CompileOptions.build (options : CompileOptions) (file : String) : BuildOptions :=
  { sourceMaps := options.sourceMap, sourceFile := file, target := options.target }

/-- What a command does. -/
structure Outcome where
  ending : Ending
  stdout : String := ""
  stderr : String := ""
  writes : List FileWrite := []

namespace Session

/-- The least level that is reported. -/
def threshold (s : Session) : Level :=
  if s.debug then .debug else .warning

/-- The lines of a log. -/
def logText (s : Session) (entries : List LogEntry) : String :=
  String.join ((LogEntry.atLeast s.threshold entries).map fun e =>
    "[" ++ e.level.name ++ "] " ++ e.message ++ "\n")

/-- The end of a command that a user has to mend. -/
def fail (s : Session) (log : List LogEntry) (message : String) : Outcome :=
  { ending := .status 2
    stderr := s.logText log ++ String.ofList (Text.trimEnd message.toList) ++ "\n" }

/-- What stands at a path. -/
def look (s : Session) (path : String) : Lookup :=
  match s.surroundings.denial? path with
  | some e => .failed e
  | none =>
    if Path.leaves path.toList then s.surroundings.look path else FileTree.look s.files path

/-- Why a command has no source. -/
inductive SourceError where
  /-- What a user has to mend. -/
  | user (message : String)
  /-- The system cannot tell whether there is a file. -/
  | file (error : FileError)

/-- The source at a path. -/
def readSource (s : Session) (path : String) : Except SourceError String :=
  match s.look path with
  | .missing => .error (.user ("File not found: " ++ Path.shown path))
  | .noFile => .error (.user ("File not found: " ++ Path.shown path))
  | .failed e => .error (.file e)
  | .file content =>
    match content.text (Path.shown path) with
    | .ok text => .ok text
    | .error e => .error (.user ("Failed to read " ++ Path.shown path ++ ": " ++ e.message))

/-- The end of a command without a source. Only what a user has to mend is caught. -/
def giveUp (s : Session) : SourceError → Outcome
  | .user message => s.fail [] message
  | .file e => { ending := .fileError e }

/-- The end of a command that writes a text, unless it cannot be encoded. -/
def print (s : Session) (log : List LogEntry) (text : String) : Outcome :=
  match s.unencodable? text with
  | some reason => s.fail log reason
  | none => { ending := .status 0, stdout := text, stderr := s.logText log }

/-! ## Parsing -/

/-- Writes the components and diagnostics of a file. -/
def parse (s : Session) (file : String) : Outcome :=
  match s.readSource file with
  | .error e => s.giveUp e
  | .ok source =>
    let survey := Survey.ofSource (.ofFilename file) source
    let log := survey.log source file
    match survey.forest source with
    | .error e => s.fail log e.message
    | .ok forest => s.print log (forest.json file).compact

/-! ## Compiling -/

/-- A text that ends with a line end. -/
def withLineEnd (text : String) : String :=
  if text.toList.getLast? = some '\n' then text else text ++ "\n"

/-- The path of the source map of a file. -/
def mapPath (file : String) (options : CompileOptions) : String :=
  match options.mapOut with
  | some path => if path.isEmpty then file ++ ".map" else path
  | none => file ++ ".map"

/-- The source map to write at a path whose directory is made if it is missing. -/
def prepareMap (s : Session) (path text : String) : Except FileError FileWrite :=
  match s.surroundings.refusal? path with
  | some e => .error e
  | none =>
    if Path.leaves path.toList then .ok ⟨FileWrite.namesBeyond path, text⟩
    else FileWrite.prepareAnew s.files path text

/-- Writes a source map after the module. No file has a path with a null character. A file is opened
before its text is encoded, and is empty if that fails. -/
def emitMap (s : Session) (stdout stderr path text : String) : Outcome :=
  if path.toList.contains '\x00' then
    { ending := .status 2, stdout, stderr := stderr ++ "embedded null byte\n" }
  else
    match s.prepareMap path text with
    | .error e => { ending := .fileError e, stdout, stderr }
    | .ok write =>
      match s.unencodable? text with
      | some reason =>
        { ending := .status 2
          stdout
          stderr := stderr ++ String.ofList (Text.trimEnd reason.toList) ++ "\n"
          writes := [{ write with text := "" }] }
      | none => { ending := .status 0, stdout, stderr, writes := [write] }

/-- Writes the module of components that were parsed without a diagnostic. -/
def emit (s : Session) (file : String) (options : CompileOptions) (log : List LogEntry)
    (nodes : List Component) : Outcome :=
  let module := generate (options.build file) .builtIn nodes
  let stdout := withLineEnd module.code
  let stderr := s.logText (log ++ generationLog .builtIn nodes)
  match module.map with
  | none => { ending := .status 0, stdout, stderr }
  | some map => s.emitMap stdout stderr (mapPath file options) map.json.compact

/-- Compiles a file, unless it has a diagnostic. -/
def compile (s : Session) (file : String) (options : CompileOptions) : Outcome :=
  match s.readSource file with
  | .error e => s.giveUp e
  | .ok source =>
    let survey := Survey.ofSource (.ofFilename file) source
    let log := survey.log source file
    match survey.forest source with
    | .error e => s.fail log e.message
    | .ok forest =>
      match forest.diagnostics with
      | [] => s.emit file options log forest.nodes
      | diagnostics =>
        { ending := .status 2
          stderr := s.logText log ++
            String.join (diagnostics.map fun d => file ++ ":" ++ d.text ++ "\n") }

/-! ## Analysing -/

/-- The entry of a file, with what the options ask for. -/
def fileJson (s : Session) (options : AnalyzeOptions) (file : String × List ConcatPattern) : Json :=
  let patterns :=
    if options.detailed then [("patterns", .array (file.2.map ConcatPattern.json))] else []
  let duration :=
    if options.performance then [("durationMs", .int (s.elapsed file.1))] else []
  .object ([("path", .string file.1)] ++ patterns ++ duration)

/-- The analysis of a project as data. -/
def analysisJson (s : Session) (options : AnalyzeOptions) (project : ScannedProject) : Json :=
  let a := project.analysis
  if options.concatenation then .object [("concatenation", a.report.json)]
  else
    let files :=
      if options.detailed || options.performance then
        [("files", .array (a.files.map (s.fileJson options)))]
      else []
    let total :=
      if options.performance then
        [("totalDurationMs", .int (a.files.foldl (fun total f => total + s.elapsed f.1) 0 : Nat))]
      else []
    .object
      ([("root", .string project.directory),
        ("filesAnalyzed", .int a.files.length),
        ("concatenation", a.report.json),
        ("warnings", .array (a.warnings.map Json.string))] ++ files ++ total)

/-- Writes the report of a project that was scanned. -/
def publish (s : Session) (options : AnalyzeOptions) (project : ScannedProject) : Outcome :=
  let text := (s.analysisJson options project).indented
  let log := project.analysis.log
  let output := options.output.getD ""
  if output.isEmpty then s.print log text
  else
    match FileWrite.prepare s.files output (text ++ "\n") with
    | .error e => { ending := .fileError e, stderr := s.logText log }
    | .ok write =>
      match s.unencodable? text with
      | some reason => { s.fail log reason with writes := [{ write with text := "" }] }
      | none =>
        { ending := .status 0
          stderr := s.logText log ++ "Report written to: " ++ output ++ "\n"
          writes := [write] }

/-- Analyses a project. -/
def analyze (s : Session) (options : AnalyzeOptions) : Outcome :=
  let excludes :=
    if options.excludes.isEmpty then ScanRules.defaultExcludes else options.excludes
  match s.surroundings.denial? options.root with
  | some e => { ending := .fileError e }
  | none =>
    match scanProject s.tools s.directory s.files options.root (Path.shown options.root)
        options.pattern excludes with
    | .error (.notDirectory path) => s.fail [] (notDirectoryMessage path)
    | .error (.file e) => { ending := .fileError e }
    | .error (.pattern e) =>
      match e.message? with
      | some message => s.fail [] message
      | none => { ending := .patternError e }
    | .ok project => s.publish options project

end Session

/-- Runs a command. -/
def Command.run (s : Session) : Command → Outcome
  | parse file => s.parse file
  | compile file options => s.compile file options
  | analyze options => s.analyze options

/-- The outcome of a command line that is answered at once. -/
def Stop.outcome (stop : Stop) : Outcome :=
  { ending := .status stop.status, stdout := stop.stdout, stderr := stop.stderr }

/-- Runs a command line. -/
def run (s : Session) (arguments : List String) : Outcome :=
  match Command.read arguments with
  | .error stop => stop.outcome
  | .ok command => command.run s

end CommandLine

end UiMarkup
