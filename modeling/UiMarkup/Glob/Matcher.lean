import UiMarkup.Text.Quoted

/-!
# Matchers

Matching globs is left to a library. It is handed patterns without brace groups and gives a
predicate on paths, or refuses a pattern.
-/

namespace UiMarkup.Glob

/-- Why patterns are refused. -/
inductive PatternError where
  /-- Nothing is left of the pattern, or it ends in a lone backslash. -/
  | invalid (pattern : String)
  /-- A range of characters ends before it starts. -/
  | reversedRange
  /-- There are more brace groups than can be expanded. -/
  | tooManyGroups
  deriving Repr, DecidableEq

/-- The wording of an error, if it has one. -/
def PatternError.message? : PatternError → Option String
  | invalid pattern => some ("Invalid git pattern: " ++ Text.quoted pattern)
  | reversedRange => none
  | tooManyGroups => none

/-- A library that matches globs. -/
abbrev Matcher := (patterns : List String) → Except PatternError (String → Bool)

end UiMarkup.Glob
