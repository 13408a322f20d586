import UiMarkup.Glob.Braces
import UiMarkup.Glob.Matcher
import UiMarkup.Path
import UiMarkup.Text.Lowercase

/-!
# Path filters

A filter accepts the paths that it includes and does not exclude. An include entry that starts with
a dot and has no wildcard is a suffix, compared without regard to case; every other entry is a glob.
Globs are tried on every tail of a path, so that a pattern for a project-relative path also works on
an absolute one.
-/

namespace UiMarkup

/-- The tails of a path, the longest first. Backslashes are read as slashes, and a drive letter does
not count. -/
def Path.tails (path : String) : List String :=
  let parts := (Path.parts (Path.normalise path.toList)).filter (· != ['/'])
  let parts :=
    match parts with
    | first :: rest => if first.getLast? = some ':' then rest else first :: rest
    | [] => []
  nonemptyTails parts
where
  /-- The nonempty tails of a row of segments, joined by slashes. -/
  nonemptyTails : List (List Char) → List String
    | [] => []
    | part :: parts =>
      String.ofList (Text.joinWith '/' (part :: parts)) :: nonemptyTails parts

/-- Include and exclude rules. A rule is a predicate on the tails of a path. -/
structure PathFilter where
  suffixes : List String
  includes : Option (String → Bool)
  excludes : Option (String → Bool)

namespace PathFilter

/-- The include entry is a suffix. -/
def isSuffixEntry (entry : String) : Bool :=
  entry.toList.head? == some '.' && !entry.toList.any (['*', '?', '['].contains ·)

/-- The predicate of a list of globs; without globs there is none. -/
def globPredicate (matcher : Glob.Matcher) (globs : List String) :
    Except Glob.PatternError (Option (String → Bool)) :=
  match globs.mapM fun glob => Glob.expandBraces Glob.maxCalls glob.toList with
  | none => .error .tooManyGroups
  | some expansions =>
    let patterns := expansions.flatten.map String.ofList
    if patterns.isEmpty then .ok none else (matcher patterns).map some

/-- The filter of include and exclude entries. -/
def ofEntries (matcher : Glob.Matcher) (includes excludes : List String) :
    Except Glob.PatternError PathFilter :=
  match globPredicate matcher (includes.filter (!isSuffixEntry ·)) with
  | .error e => .error e
  | .ok included =>
    match globPredicate matcher excludes with
    | .error e => .error e
    | .ok excluded => .ok ⟨(includes.filter isSuffixEntry).map Text.lower, included, excluded⟩

/-- Some tail of the path satisfies the rule, if there is one. -/
def matchesTail (rule : Option (String → Bool)) (path : String) : Bool :=
  rule.any fun holds => (Path.tails path).any holds

/-- The path ends with one of the suffixes, or a tail of it is included. -/
def isIncluded (f : PathFilter) (path : String) : Bool :=
  let path' := (Text.lower path).toList
  f.suffixes.any (fun s => s.toList.isSuffixOf path') || matchesTail f.includes path

/-- A tail of the path is excluded. -/
def isExcluded (f : PathFilter) (path : String) : Bool :=
  matchesTail f.excludes path

/-- The filter lets the path through. -/
def accepts (f : PathFilter) (path : String) : Bool :=
  f.isIncluded path && !f.isExcluded path

end PathFilter

end UiMarkup
