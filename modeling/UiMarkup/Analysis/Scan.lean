import UiMarkup.Analysis.Report
import UiMarkup.Files.Tree
import UiMarkup.Filter

/-!
# Scanning a project

A scan analyses every source file below a directory and reports on all of them together. A file that
cannot be read or analysed gives a warning, and the scan goes on. How globs are matched and how a
source is analysed is given to the scan.
-/

namespace UiMarkup

/-- What a scan works with. -/
structure ScanTools where
  matcher : Glob.Matcher
  analyzer : Analyzer

/-- Which files a scan looks at. A rule is a predicate on paths relative to the directory; the path
of a directory ends with a slash. -/
structure ScanRules where
  includes : Option (String → Bool)
  excludes : Option (String → Bool)

/-- A file below the scanned directory. -/
structure SourceFile where
  path : String
  content : FileContent
  deriving Repr, DecidableEq

namespace ScanRules

/-- The glob of the files that are analysed if none is given. -/
def defaultPattern : String := "**/*.\x7bts,tsx,js,jsx\x7d"

/-- The globs of what is left out if none are given. -/
def defaultExcludes : List String := ["node_modules/**"]

/-- The rules of globs. -/
def ofGlobs (matcher : Glob.Matcher) (pattern : String) (excludes : List String) :
    Except Glob.PatternError ScanRules :=
  match PathFilter.globPredicate matcher [pattern] with
  | .error e => .error e
  | .ok included =>
    match PathFilter.globPredicate matcher excludes with
    | .error e => .error e
    | .ok excluded => .ok ⟨included, excluded⟩

/-- The rules leave the path out. -/
def excludesPath (rules : ScanRules) (path : String) : Bool :=
  rules.excludes.any fun holds => holds path

/-- The rules take the file. -/
def takes (rules : ScanRules) (path : String) : Bool :=
  rules.includes.all (fun holds => holds path) && !rules.excludesPath path

/-- The rules leave the directory out with everything in it; the path ends with a slash. -/
def prunes (rules : ScanRules) (name path : String) : Bool :=
  name == ".git" || rules.excludesPath path

mutual
/-- The files at or below an entry of the directory with the given path. -/
def filesOf (rules : ScanRules) (base : String) : FileTree → List SourceFile
  | .file name content => if rules.takes (base ++ name) then [⟨base ++ name, content⟩] else []
  | .directory name entries =>
    let path := base ++ name ++ "/"
    if rules.prunes name path then [] else rules.filesIn path entries

/-- The files at or below the entries of a directory. -/
def filesIn (rules : ScanRules) (base : String) : List FileTree → List SourceFile
  | [] => []
  | entry :: entries => rules.filesOf base entry ++ rules.filesIn base entries
end

/-- The files of a directory that the rules take, sorted by their paths. -/
def list (rules : ScanRules) (entries : List FileTree) : List SourceFile :=
  (rules.filesIn "" entries).mergeSort fun a b => a.path ≤ b.path

end ScanRules

/-- What became of a file. -/
inductive FileOutcome where
  | unreadable (error : ReadError)
  | rejected (error : AnalysisError)
  | analysed (patterns : List ConcatPattern)
  deriving Repr, DecidableEq

namespace FileOutcome

/-- Reads and analyses a file of the directory with the given absolute path. -/
def ofFile (analyzer : Analyzer) (directory : String) (f : SourceFile) : FileOutcome :=
  match f.content.text (directory ++ "/" ++ f.path) with
  | .error e => unreadable e
  | .ok text =>
    match analyzer text (some f.path) with
    | .error e => rejected e
    | .ok patterns => analysed patterns

/-- The patterns that the file is listed with; a file that cannot be read is not listed. -/
def patterns? : FileOutcome → Option (List ConcatPattern)
  | unreadable _ => none
  | rejected _ => some []
  | analysed patterns => some patterns

/-- Why the file has no patterns, if that is an accident. -/
def reason? : FileOutcome → Option String
  | unreadable e => some e.message
  | rejected e => some e.message
  | analysed _ => none

/-- What is reported about a file. -/
def log (path : String) : FileOutcome → List LogEntry
  | unreadable e => [⟨.warning, "Skipping unreadable file " ++ path ++ ": " ++ e.message⟩]
  | rejected e => analysisLog (some path) (.error e)
  | analysed patterns => analysisLog (some path) (.ok patterns)

end FileOutcome

/-- What became of the files of a project. -/
structure ProjectAnalysis where
  outcomes : List (String × FileOutcome)
  deriving Repr, DecidableEq

namespace ProjectAnalysis

/-- Analyses files of the directory with the given absolute path. -/
def ofFiles (analyzer : Analyzer) (directory : String) (files : List SourceFile) :
    ProjectAnalysis :=
  ⟨files.map fun f => (f.path, .ofFile analyzer directory f)⟩

/-- The files that could be read, with their patterns. -/
def files (a : ProjectAnalysis) : List (String × List ConcatPattern) :=
  a.outcomes.filterMap fun (path, outcome) => outcome.patterns?.map fun ps => (path, ps)

/-- The warnings, one for each file that could not be read or analysed. -/
def warnings (a : ProjectAnalysis) : List String :=
  a.outcomes.filterMap fun (path, outcome) =>
    outcome.reason?.map fun reason => path ++ ": " ++ reason

/-- The patterns of all files. -/
def patterns (a : ProjectAnalysis) : List ConcatPattern :=
  a.files.flatMap Prod.snd

/-- The report about all files. -/
def report (a : ProjectAnalysis) : Report :=
  .ofPatterns a.patterns

/-- What is reported on the way. -/
def log (a : ProjectAnalysis) : List LogEntry :=
  a.outcomes.flatMap fun (path, outcome) => outcome.log path

end ProjectAnalysis

/-- Why a project cannot be scanned. -/
inductive ScanError where
  | notDirectory (path : String)
  /-- The system cannot tell whether there is a directory. -/
  | file (error : FileError)
  | pattern (error : Glob.PatternError)

/-- A project that was scanned: the absolute path of its directory, and its analysis. -/
structure ScannedProject where
  directory : String
  analysis : ProjectAnalysis

/-- The absolute path to which names lead from a directory. -/
def absolutePath (directory : String) (names : List String) : String :=
  "/".intercalate (directory :: names)

/-- Scans the directory at a path that starts in the directory with the given absolute path, which
holds `root`; `shownPath` is how messages call it. -/
def scanProject (tools : ScanTools) (directory : String) (root : List FileTree)
    (path shownPath pattern : String) (excludes : List String) :
    Except ScanError ScannedProject :=
  match FileTree.target root path with
  | .ok (names, .directory entries) =>
    match ScanRules.ofGlobs tools.matcher pattern excludes with
    | .error e => .error (.pattern e)
    | .ok rules =>
      let scanned := absolutePath directory names
      .ok ⟨scanned, .ofFiles tools.analyzer scanned (rules.list entries)⟩
  | .error .nameTooLong => .error (.file ⟨.nameTooLong, shownPath⟩)
  | _ => .error (.notDirectory shownPath)

/-- How messages call a directory that is none. -/
def notDirectoryMessage (path : String) : String :=
  "Not a directory: " ++ path

end UiMarkup
