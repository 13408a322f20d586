import UiMarkup.Analysis.Scan
import UiMarkup.CommandLine.Arguments

/-!
# Commands

The three commands of the program and their options.
-/

namespace UiMarkup.CommandLine

/-- How a file is compiled. -/
structure CompileOptions where
  sourceMap : Bool := false
  mapOut : Option String := none
  target : String := "es2022"
  deriving Repr, DecidableEq

/-- How a project is analysed. -/
structure AnalyzeOptions where
  root : String := "."
  pattern : String := ScanRules.defaultPattern
  excludes : List String := []
  output : Option String := none
  detailed : Bool := false
  performance : Bool := false
  concatenation : Bool := false
  deriving Repr, DecidableEq

/-- A command. -/
inductive Command where
  | parse (file : String)
  | compile (file : String) (options : CompileOptions)
  | analyze (options : AnalyzeOptions)
  deriving Repr, DecidableEq

/-- The name of the program. -/
def program : String := "tachc"

/-- The line that shows the version. -/
def versionLine : String := program ++ " 0.1.0"

/-- The option that every command has. -/
def helpOption : OptionSpec := ⟨["-h", "--help"], .help⟩

/-- What the program takes before the name of a command. -/
def mainSynopsis : Synopsis :=
  ⟨program, [helpOption, ⟨["-v", "--version"], .version⟩], .rest "cmd"⟩

/-- What the command to parse a file takes. -/
def parseSynopsis : Synopsis :=
  ⟨program ++ " parse", [helpOption], .word "file"⟩

/-- What the command to compile a file takes. -/
def compileSynopsis : Synopsis :=
  ⟨program ++ " compile",
    [helpOption, ⟨["--source-map"], .flag⟩, ⟨["--map-out"], .value⟩, ⟨["--target"], .value⟩],
    .word "file"⟩

/-- What the command to analyse a project takes. -/
def analyzeSynopsis : Synopsis :=
  ⟨program ++ " analyze",
    [helpOption, ⟨["--root"], .value⟩, ⟨["--pattern"], .value⟩, ⟨["--exclude"], .value⟩,
      ⟨["--output"], .value⟩, ⟨["--detailed"], .flag⟩, ⟨["--performance"], .flag⟩,
      ⟨["--concatenation"], .flag⟩],
    .none⟩

/-- The names of the commands. -/
def commandNames : List String := ["parse", "compile", "analyze"]

namespace Reading

/-- The values of an option, in order. -/
def values (r : Reading) (key : String) : List String :=
  (r.noted.filter fun entry => entry.1 == key).map Prod.snd

/-- The last value of an option. -/
def value? (r : Reading) (key : String) : Option String :=
  (r.values key).getLast?

/-- The option was given. -/
def has (r : Reading) (key : String) : Bool :=
  !(r.values key).isEmpty

/-- The first word of the operand. -/
def word (r : Reading) : String :=
  r.operand.headD ""

end Reading

namespace Command

/-- The command to parse a file. -/
def ofParse (r : Reading) : Command :=
  .parse r.word

/-- The command to compile a file. -/
def ofCompile (r : Reading) : Command :=
  let defaults : CompileOptions := {}
  .compile r.word
    { sourceMap := r.has "--source-map"
      mapOut := r.value? "--map-out"
      target := (r.value? "--target").getD defaults.target }

/-- The command to analyse a project. -/
def ofAnalyze (r : Reading) : Command :=
  let defaults : AnalyzeOptions := {}
  .analyze
    { root := (r.value? "--root").getD defaults.root
      pattern := (r.value? "--pattern").getD defaults.pattern
      excludes := r.values "--exclude"
      output := r.value? "--output"
      detailed := r.has "--detailed"
      performance := r.has "--performance"
      concatenation := r.has "--concatenation" }

/-- Reads the arguments of a command. Gives the command and what is left over. -/
def readNamed (name : String) (arguments : List String) : Except Stop (Command × List String) :=
  match name with
  | "parse" => (parseSynopsis.read versionLine arguments).map fun r => (ofParse r, r.extras)
  | "compile" => (compileSynopsis.read versionLine arguments).map fun r => (ofCompile r, r.extras)
  | "analyze" => (analyzeSynopsis.read versionLine arguments).map fun r => (ofAnalyze r, r.extras)
  | name =>
    .error (mainSynopsis.refuse ("argument cmd: invalid choice: " ++ Text.quoted name ++
      " (choose from " ++ ", ".intercalate (commandNames.map Text.quoted) ++ ")"))

/-- Reads a command line. Nothing may be left over. -/
def read (arguments : List String) : Except Stop Command :=
  match mainSynopsis.read versionLine arguments with
  | .error e => .error e
  | .ok outer =>
    match readNamed outer.word outer.operand.tail with
    | .error e => .error e
    | .ok (command, extras) =>
      match outer.extras ++ extras with
      | [] => .ok command
      | extras =>
        .error (mainSynopsis.refuse ("unrecognized arguments: " ++ " ".intercalate extras))

end Command

end UiMarkup.CommandLine
