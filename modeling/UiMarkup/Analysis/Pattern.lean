import UiMarkup.Log
import UiMarkup.Text.Blank
import UiMarkup.Text.Boundary
import UiMarkup.TypeScript.Document

/-!
# Concatenation patterns

The analysis looks for calls of the form `left.build().concat(right)`. A pattern is static if both
sides are fixed when the source is written, and each pattern gets the tier of accessibility support
that it needs.
-/

namespace UiMarkup

open TypeScript (Tree Document Dialect SourceParser)

/-- Whether both sides of a concatenation are fixed. -/
inductive PatternKind where
  | static
  | dynamic
  /-- A kind that this analysis does not know. -/
  | other (name : String)
  deriving Repr, DecidableEq

/-- The name of a kind. -/
def PatternKind.name : PatternKind → String
  | static => "static"
  | dynamic => "dynamic"
  | other name => name

/-- The kind with a name. -/
def PatternKind.ofName (name : String) : PatternKind :=
  if name = "static" then static else if name = "dynamic" then dynamic else other name

/-- How much accessibility support a concatenation needs. -/
inductive Tier where
  /-- Nothing interactive is concatenated. -/
  | minimal
  /-- One of the sides is interactive. -/
  | aria
  /-- The file has containers or labels for assistive technology. -/
  | full
  /-- A tier that this analysis does not know. -/
  | other (name : String)
  deriving Repr, DecidableEq

/-- The name of a tier. -/
def Tier.name : Tier → String
  | minimal => "minimal"
  | aria => "aria"
  | full => "full"
  | other name => name

/-- The tier with a name. -/
def Tier.ofName (name : String) : Tier :=
  if name = "minimal" then minimal
  else if name = "aria" then aria
  else if name = "full" then full
  else other name

/-- A concatenation that was found: where it stands, counted in characters, and its two sides. -/
structure ConcatPattern where
  kind : PatternKind
  start : Nat
  stop : Nat
  left : String
  right : String
  optimizable : Bool
  tier : Tier
  deriving Repr, DecidableEq

namespace Analysis

/-! ## Tiers -/

/-- The containers that lay out other components. -/
def layoutNames : List String := ["VStack", "HStack", "ZStack", "Form"]

/-- The names of interactive components and gestures. -/
def interactiveNames : List String := ["Button", "Link", "onTapGesture", "onClick"]

/-- The text starts with a label for assistive technology: a name such as `ariaLabel`, or a role. -/
def startsWithLabel (s : List Char) : Bool :=
  (['a', 'r', 'i', 'a'].isPrefixOf s && (s.drop 4).head?.any Char.isUpper) ||
    (['r', 'o', 'l', 'e'].isPrefixOf s && ((s.drop 4).dropWhile Text.isBlank).head? == some ':')

/-- The file needs full support. -/
def needsFull (text : List Char) : Bool :=
  Text.mentionsWord layoutNames text || Text.someWordStart startsWithLabel false text

/-- The tier of a pattern with the given sides, in a file that needs full support or does not. -/
def tierOf (fullFile : Bool) (left right : List Char) : Tier :=
  if fullFile then .full
  else if Text.mentionsWord interactiveNames left || Text.mentionsWord interactiveNames right then
    .aria
  else .minimal

/-! ## Calls -/

/-- The object whose method of the given name the node calls. -/
def methodReceiver? (d : Document) (call : Tree) (method : String) : Option Tree :=
  match call.child? .function with
  | none => none
  | some function =>
    if function.kind ≠ .member then none
    else
      match function.child? .property with
      | none => none
      | some property => if d.textOf property = method then function.child? .object else none

/-- The first thing that a call passes. -/
def firstArgument? (call : Tree) : Option Tree :=
  match call.child? .arguments with
  | none => none
  | some arguments => arguments.namedChildren.find? fun t => t.kind != .comment

/-- The names that loops usually give to what they go through. -/
def loopVariables : List String := ["entry", "item", "index", "variable"]

/-- The node makes what it belongs to dynamic. -/
def variesAt (d : Document) (t : Tree) : Bool :=
  match t.kind with
  | .templateSubstitution | .subscript => true
  | .identifier => loopVariables.contains (d.textOf t)
  | _ => false

/-- Something in the tree makes it dynamic. -/
def isDynamic (d : Document) (t : Tree) : Bool :=
  t.walk.any (variesAt d)

/-- The two sides of a concatenation: the call is of `concat`, on the result of a call of `build`,
and passes something. -/
def sides? (d : Document) (call : Tree) : Option (Tree × Tree) :=
  match methodReceiver? d call "concat" with
  | none => none
  | some receiver =>
    if receiver.kind ≠ .call then none
    else
      match methodReceiver? d receiver "build" with
      | none => none
      | some left => (firstArgument? call).map fun right => (left, right)

/-- The pattern at a node, if the node is a concatenation with two sides that are not blank. -/
def patternAt? (d : Document) (fullFile : Bool) (call : Tree) : Option ConcatPattern :=
  if call.kind ≠ .call then none
  else
    match sides? d call with
    | none => none
    | some (left, right) =>
      let leftText := Text.trim (d.textOf left).toList
      let rightText := Text.trim (d.textOf right).toList
      if leftText.isEmpty || rightText.isEmpty then none
      else
        let kind := if isDynamic d left || isDynamic d right then .dynamic else .static
        let range := d.charRange call
        some
          { kind
            start := range.1
            stop := range.2
            left := String.ofList leftText
            right := String.ofList rightText
            optimizable := kind == .static
            tier := tierOf fullFile leftText rightText }

/-- The patterns of a document, an outer one before those inside it. -/
def patterns (d : Document) : List ConcatPattern :=
  d.root.walk.filterMap (patternAt? d (needsFull d.text))

end Analysis

/-! ## Sources -/

/-- Why a source has no analysis. -/
inductive AnalysisError where
  /-- The source has syntax errors. -/
  | syntaxErrors (count : Nat)
  /-- The analysis broke off. -/
  | failed (message : String)
  deriving Repr, DecidableEq

/-- The wording of an error. -/
def AnalysisError.message : AnalysisError → String
  | syntaxErrors count => toString count ++ " syntax error(s)"
  | failed message => "analysis failed: " ++ message

/-- An analysis of sources. The name of its file, if a source has one, decides the dialect. -/
abbrev Analyzer := (source : String) → (filename : Option String) →
  Except AnalysisError (List ConcatPattern)

/-- The analysis with a parser. A tree with an error counts as having one, also if something is only
missing. -/
def analyze (parser : SourceParser) : Analyzer := fun source filename =>
  match parser (.ofFilename (filename.getD "")) source.toList with
  | .error message => .error (.failed message)
  | .ok parsed =>
    if parsed.hasError then .error (.syntaxErrors (max 1 parsed.errorCount))
    else .ok (Analysis.patterns ⟨source.toList, parsed.root⟩)

/-- What is reported about an error in the analysis of a source. -/
def AnalysisError.report (filename : String) : AnalysisError → String
  | syntaxErrors count =>
    "Skipping concatenation analysis of " ++ filename ++ ": " ++ (syntaxErrors count).message
  | failed message => "Failed to analyze " ++ filename ++ " for concatenation patterns: " ++ message

/-- What is reported about the analysis of a source. -/
def analysisLog (filename : Option String) (result : Except AnalysisError (List ConcatPattern)) :
    List LogEntry :=
  match result with
  | .ok _ => []
  | .error e => [⟨.warning, e.report (filename.getD "None")⟩]

end UiMarkup
