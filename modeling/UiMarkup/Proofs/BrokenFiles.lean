import UiMarkup.Proofs.FileListing

/-!
# Broken files in a project

A scan goes through the files of the listing one by one. A file that is broken, because it cannot be
read, its bytes are no text or the analysis rejects its text, is accounted for by a warning and
contributes no pattern; what a scan finds elsewhere does not depend on it. This holds for every way
to match globs and for every analysis.

* `Accounted`: what each file of a listing contributes, in the order of the listing.
* `ProjectAnalysis.DiffersBy`: two analyses that are alike but for one file.
* `scan_isolates_broken_files`: every file is accounted for, and a broken file that is put into a
  project changes nothing but its own entry and its own warning.
-/

namespace UiMarkup

/-- The file can be read as a text. -/
def SourceFile.HasText (f : SourceFile) (text : String) : Prop :=
  ∃ content, f.content = .bytes content ∧ Text.readFile content = .ok text

/-- The file is broken: the entries that it is listed with, and its warning. The files are those of
the directory with the given absolute path. -/
inductive Broken (analyzer : Analyzer) (directory : String) (f : SourceFile) :
    List (String × List ConcatPattern) → String → Prop
  | unreadable {cause : FileCause} (hcontent : f.content = .unreadable cause) :
    Broken analyzer directory f []
      (f.path ++ ": " ++ FileError.message ⟨cause, directory ++ "/" ++ f.path⟩)
  | undecodable {content : List UInt8} {e : Text.EncodingError}
    (hcontent : f.content = .bytes content) (hread : Text.readFile content = .error e) :
    Broken analyzer directory f [] (f.path ++ ": " ++ e.message)
  | rejected {text : String} {e : AnalysisError} (htext : f.HasText text)
    (hanalyzer : analyzer text (some f.path) = .error e) :
    Broken analyzer directory f [(f.path, [])] (f.path ++ ": " ++ e.message)

/-- The files, one by one and in order, account for the entries and for the warnings. -/
inductive Accounted (analyzer : Analyzer) (directory : String) :
    List SourceFile → List (String × List ConcatPattern) → List String → Prop
  | nil : Accounted analyzer directory [] [] []
  | broken {f : SourceFile} {fs : List SourceFile}
    {added entries : List (String × List ConcatPattern)} {line : String} {warnings : List String}
    (hbroken : Broken analyzer directory f added line)
    (rest : Accounted analyzer directory fs entries warnings) :
    Accounted analyzer directory (f :: fs) (added ++ entries) (line :: warnings)
  | analysed {f : SourceFile} {fs : List SourceFile} {entries : List (String × List ConcatPattern)}
    {warnings : List String} {text : String} {patterns : List ConcatPattern}
    (htext : f.HasText text) (hanalyzer : analyzer text (some f.path) = .ok patterns)
    (rest : Accounted analyzer directory fs entries warnings) :
    Accounted analyzer directory (f :: fs) ((f.path, patterns) :: entries) warnings

/-! ## The outcome of one file -/

namespace FileOutcome

variable {analyzer : Analyzer} {directory : String} {f : SourceFile}

theorem ofFile_of_unreadable {cause : FileCause} (h : f.content = .unreadable cause) :
    ofFile analyzer directory f = .unreadable (.file ⟨cause, directory ++ "/" ++ f.path⟩) := by
  rw [ofFile, h]
  rfl

theorem ofFile_of_undecodable {content : List UInt8} {e : Text.EncodingError}
    (h : f.content = .bytes content) (hread : Text.readFile content = .error e) :
    ofFile analyzer directory f = .unreadable (.encoding e) := by
  rw [ofFile, h, FileContent.text, hread]
  rfl

theorem ofFile_of_hasText {text : String} (h : f.HasText text) :
    ofFile analyzer directory f =
      match analyzer text (some f.path) with
      | .error e => .rejected e
      | .ok patterns => .analysed patterns := by
  obtain ⟨content, hcontent, hread⟩ := h
  rw [ofFile, hcontent, FileContent.text, hread]
  rfl

end FileOutcome

namespace ProjectAnalysis

/-- The second analysis is the first with further entries at one place and a further warning; the
report is the same. -/
structure DiffersBy (added : List (String × List ConcatPattern)) (line : String)
    (a a' : ProjectAnalysis) : Prop where
  report : a'.report = a.report
  files : ∃ before after, a.files = before ++ after ∧ a'.files = before ++ added ++ after
  warnings : ∃ before after, a.warnings = before ++ after ∧ a'.warnings = before ++ line :: after

section
variable (analyzer : Analyzer) (directory : String) (f : SourceFile) (fs gs : List SourceFile)

theorem files_ofFiles_append :
    (ofFiles analyzer directory (fs ++ gs)).files =
      (ofFiles analyzer directory fs).files ++ (ofFiles analyzer directory gs).files := by
  simp [files, ofFiles]

theorem warnings_ofFiles_append :
    (ofFiles analyzer directory (fs ++ gs)).warnings =
      (ofFiles analyzer directory fs).warnings ++ (ofFiles analyzer directory gs).warnings := by
  simp [warnings, ofFiles]

/-- A file is listed with the patterns of its outcome, if it is listed at all. -/
theorem files_ofFiles_cons :
    (ofFiles analyzer directory (f :: fs)).files =
      ((FileOutcome.ofFile analyzer directory f).patterns?.map fun ps => (f.path, ps)).toList ++
        (ofFiles analyzer directory fs).files := by
  cases h : (FileOutcome.ofFile analyzer directory f).patterns? <;> simp [files, ofFiles, h]

/-- A file gives the warning of its outcome, if it has one. -/
theorem warnings_ofFiles_cons :
    (ofFiles analyzer directory (f :: fs)).warnings =
      ((FileOutcome.ofFile analyzer directory f).reason?.map fun r => f.path ++ ": " ++ r).toList ++
        (ofFiles analyzer directory fs).warnings := by
  cases h : (FileOutcome.ofFile analyzer directory f).reason? <;> simp [warnings, ofFiles, h]

end

end ProjectAnalysis

open ProjectAnalysis

/-! ## Broken files -/

section
variable {analyzer : Analyzer} {directory : String}

namespace Broken

variable {f : SourceFile} {added : List (String × List ConcatPattern)} {line : String}

/-- A broken file has no patterns to be listed with, and its reason makes its warning. -/
theorem outcome_eq (h : Broken analyzer directory f added line) :
    ((FileOutcome.ofFile analyzer directory f).patterns?.map fun ps => (f.path, ps)).toList =
        added ∧
      ((FileOutcome.ofFile analyzer directory f).reason?.map fun r => f.path ++ ": " ++ r).toList =
        [line] := by
  cases h with
  | unreadable hcontent =>
    rw [FileOutcome.ofFile_of_unreadable hcontent]
    exact ⟨rfl, rfl⟩
  | undecodable hcontent hread =>
    rw [FileOutcome.ofFile_of_undecodable hcontent hread]
    exact ⟨rfl, rfl⟩
  | rejected htext hanalyzer =>
    rw [FileOutcome.ofFile_of_hasText htext, hanalyzer]
    exact ⟨rfl, rfl⟩

theorem files_ofFiles_cons (h : Broken analyzer directory f added line) (fs : List SourceFile) :
    (ofFiles analyzer directory (f :: fs)).files =
      added ++ (ofFiles analyzer directory fs).files := by
  rw [ProjectAnalysis.files_ofFiles_cons, h.outcome_eq.1]

theorem warnings_ofFiles_cons (h : Broken analyzer directory f added line) (fs : List SourceFile) :
    (ofFiles analyzer directory (f :: fs)).warnings =
      line :: (ofFiles analyzer directory fs).warnings := by
  rw [ProjectAnalysis.warnings_ofFiles_cons, h.outcome_eq.2, List.singleton_append]

theorem no_patterns (h : Broken analyzer directory f added line) : added.flatMap Prod.snd = [] := by
  cases h <;> rfl

/-- A broken file among others adds its own entry and its own warning. -/
theorem differsBy (h : Broken analyzer directory f added line) (before after : List SourceFile) :
    DiffersBy added line (ofFiles analyzer directory (before ++ after))
      (ofFiles analyzer directory (before ++ f :: after)) where
  report := by
    simp only [report, patterns, files_ofFiles_append, h.files_ofFiles_cons, List.flatMap_append,
      h.no_patterns, List.nil_append]
  files := by
    refine ⟨(ofFiles analyzer directory before).files, (ofFiles analyzer directory after).files,
      files_ofFiles_append .., ?_⟩
    rw [files_ofFiles_append, h.files_ofFiles_cons, List.append_assoc]
  warnings := by
    refine ⟨(ofFiles analyzer directory before).warnings,
      (ofFiles analyzer directory after).warnings, warnings_ofFiles_append .., ?_⟩
    rw [warnings_ofFiles_append, h.warnings_ofFiles_cons]

end Broken

theorem broken_or_analysed (analyzer : Analyzer) (directory : String) (f : SourceFile) :
    (∃ added line, Broken analyzer directory f added line) ∨
      ∃ text patterns, f.HasText text ∧ analyzer text (some f.path) = .ok patterns := by
  cases hcontent : f.content with
  | unreadable cause => exact .inl ⟨_, _, .unreadable hcontent⟩
  | bytes content =>
    cases hread : Text.readFile content with
    | error e => exact .inl ⟨_, _, .undecodable hcontent hread⟩
    | ok text =>
      have htext : f.HasText text := ⟨content, hcontent, hread⟩
      cases hanalyzer : analyzer text (some f.path) with
      | error e => exact .inl ⟨_, _, .rejected htext hanalyzer⟩
      | ok patterns => exact .inr ⟨text, patterns, htext, hanalyzer⟩

/-- Every file is accounted for. -/
theorem accounted (analyzer : Analyzer) (directory : String) (fs : List SourceFile) :
    Accounted analyzer directory fs (ofFiles analyzer directory fs).files
      (ofFiles analyzer directory fs).warnings := by
  induction fs with
  | nil => exact .nil
  | cons f fs ih =>
    rcases broken_or_analysed analyzer directory f with
      ⟨added, line, hbroken⟩ | ⟨text, patterns, htext, hanalyzer⟩
    · rw [hbroken.files_ofFiles_cons, hbroken.warnings_ofFiles_cons]
      exact .broken hbroken ih
    · have houtcome : FileOutcome.ofFile analyzer directory f = .analysed patterns := by
        rw [FileOutcome.ofFile_of_hasText htext, hanalyzer]
      rw [files_ofFiles_cons, warnings_ofFiles_cons, houtcome]
      exact .analysed htext hanalyzer ih

end

/-! ## Scans -/

section
variable {root entries : List FileTree} {path : String} {names : List String}
  (hroot : FileTree.directoryAt? root path = some (names, entries))
include hroot

theorem target_of_directoryAt? : FileTree.target root path = .ok (names, .directory entries) := by
  unfold FileTree.directoryAt? at hroot
  split at hroot
  · next htarget =>
    obtain ⟨rfl, rfl⟩ := by simpa using hroot
    exact htarget
  · cases hroot

variable {tools : ScanTools} {pattern : String} {excludes : List String}

theorem scanProject_eq_error {e : Glob.PatternError}
    (hrules : ScanRules.ofGlobs tools.matcher pattern excludes = .error e)
    (directory shown : String) :
    scanProject tools directory root path shown pattern excludes = .error (.pattern e) := by
  simp only [scanProject, target_of_directoryAt? hroot, hrules]

theorem scanProject_eq_ok {rules : ScanRules}
    (hrules : ScanRules.ofGlobs tools.matcher pattern excludes = .ok rules)
    (directory shown : String) :
    scanProject tools directory root path shown pattern excludes =
      .ok ⟨absolutePath directory names,
        .ofFiles tools.analyzer (absolutePath directory names) (rules.list entries)⟩ := by
  simp only [scanProject, target_of_directoryAt? hroot, hrules]

end

/-- **A broken file disturbs nothing else.** Whatever the library that matches globs and the
analysis of sources do, a scan of a directory fails only for globs that are refused. It accounts for
every listed file in the order of the listing. A project that has one more file, listed and broken,
gives the same report, the same other entries and the same other warnings. -/
theorem scan_isolates_broken_files (tools : ScanTools) {root entries : List FileTree}
    {path : String} {names : List String}
    (hroot : FileTree.directoryAt? root path = some (names, entries))
    (directory shown pattern : String) (excludes : List String) :
    match ScanRules.ofGlobs tools.matcher pattern excludes with
    | .error e => scanProject tools directory root path shown pattern excludes = .error (.pattern e)
    | .ok rules =>
      ∃ project, scanProject tools directory root path shown pattern excludes = .ok project ∧
        Accounted tools.analyzer (absolutePath directory names) (rules.list entries)
          project.analysis.files project.analysis.warnings ∧
        ∀ {root' entries' : List FileTree} {path' : String} (shown' : String) {f : LocatedFile}
          {added : List (String × List ConcatPattern)} {line : String},
          FileTree.directoryAt? root' path' = some (names, entries') →
          FileTree.Unambiguous entries' →
          (FileTree.locatedIn entries').Perm (f :: FileTree.locatedIn entries) →
          f.source ∈ rules.list entries' →
          Broken tools.analyzer (absolutePath directory names) f.source added line →
          ∃ project', scanProject tools directory root' path' shown' pattern excludes =
              .ok project' ∧
            DiffersBy added line project.analysis project'.analysis := by
  split
  · next e hrules => exact scanProject_eq_error hroot hrules directory shown
  · next rules hrules =>
    refine ⟨_, scanProject_eq_ok hroot hrules directory shown, accounted _ _ _, ?_⟩
    intro root' entries' path' shown' f added line hroot' hpaths hperm hlist hbroken
    refine ⟨_, scanProject_eq_ok hroot' hrules directory shown', ?_⟩
    obtain ⟨before, after, hshort, hlong⟩ := ScanRules.exists_list_eq_append hpaths hperm hlist
    rw [hshort, hlong]
    exact hbroken.differsBy before after

/-- Tools for texts that are one name or cannot be read, and for globs that any path matches. -/
def nameTools : ScanTools where
  matcher := fun _ => .ok fun _ => true
  analyzer := analyze fun _ text =>
    if text.all Char.isAlpha then
      .ok ⟨.node none .program ⟨0, text.length⟩
        [.node none .expressionStatement ⟨0, text.length⟩
          [.node none .identifier ⟨0, text.length⟩ []]], false⟩
    else
      .ok ⟨.node none .program ⟨0, text.length⟩ [.node none .error ⟨0, text.length⟩ []], true⟩

/-- A file with an unclosed parenthesis, in the middle of the listing and before a file that cannot
be read. -/
theorem scan_isolates_broken_files_rejected :
    let kept : FileTree := .file "a.ts" (.bytes [0x78])
    let locked : FileTree :=
      .directory "z" [.file "m.ts" (.unreadable (.other 13 "Permission denied"))]
    let root : List FileTree := [.directory "p" [kept, locked]]
    let root' : List FileTree :=
      [.directory "p" [locked, .directory "d" [.file "x.ts" (.bytes [0x28])], kept]]
    ∃ project project',
      scanProject nameTools "/home" root "p" "p" "*" [] = .ok project ∧
      scanProject nameTools "/home" root' "p" "p" "*" [] = .ok project' ∧
      DiffersBy [("d/x.ts", [])] "d/x.ts: 1 syntax error(s)" project.analysis
        project'.analysis := by
  intro kept locked root root'
  have hrules : ScanRules.ofGlobs nameTools.matcher "*" [] = .ok ⟨some fun _ => true, none⟩ := by
    with_unfolding_all rfl
  have htext : SourceFile.HasText ⟨"d/x.ts", .bytes [0x28]⟩ "(" := ⟨[0x28], rfl, by decide +kernel⟩
  have hanalyzer : nameTools.analyzer "(" (some "d/x.ts") = .error (.syntaxErrors 1) := by
    decide +kernel
  have hline : "d/x.ts" ++ ": " ++ (AnalysisError.syntaxErrors 1).message =
      "d/x.ts: 1 syntax error(s)" := by decide +kernel
  have hrejected : Broken nameTools.analyzer (absolutePath "/home" ["p"])
      ⟨"d/x.ts", .bytes [0x28]⟩ [("d/x.ts", [])] _ := .rejected htext hanalyzer
  rw [hline] at hrejected
  have h := scan_isolates_broken_files nameTools
    (show FileTree.directoryAt? root "p" = some (["p"], [kept, locked]) from rfl) "/home" "p" "*" []
  rw [hrules] at h
  obtain ⟨project, hproject, -, hbroken⟩ := h
  obtain ⟨project', hproject', hdiffers⟩ := hbroken "p" (f := ⟨["d"], "x.ts", .bytes [0x28]⟩)
    (show FileTree.directoryAt? root' "p" = some (["p"], _) from rfl)
    (by decide +kernel) (by decide +kernel)
    (List.mem_mergeSort.mpr (by decide +kernel)) hrejected
  exact ⟨project, project', hproject, hproject', hdiffers⟩

end UiMarkup
