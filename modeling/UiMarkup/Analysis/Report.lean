import UiMarkup.Analysis.Pattern
import UiMarkup.Json

/-!
# Reports

A report counts the patterns of a project, estimates how much smaller the bundle could be, and
recommends what to do. It depends on the kinds, the tiers and the flags of the patterns only.
-/

namespace UiMarkup

/-- How many patterns need each tier of support. -/
structure TierCounts where
  minimal : Nat
  aria : Nat
  full : Nat
  deriving Repr, DecidableEq

/-- A size in hundredths of a kilobyte. -/
structure BundleSize where
  hundredths : Nat
  deriving Repr, DecidableEq

namespace BundleSize

/-- The size in kilobytes with two places, of which a zero at the end is left out. -/
def text (b : BundleSize) : String :=
  let fraction := b.hundredths % 100
  let places :=
    if fraction % 10 = 0 then toString (fraction / 10)
    else toString (fraction / 10) ++ toString (fraction % 10)
  toString (b.hundredths / 100) ++ "." ++ places

/-- The size in kilobytes, rounded to one place. -/
def roundedText (b : BundleSize) : String :=
  let tenths := (b.hundredths + 5) / 10
  toString (tenths / 10) ++ "." ++ toString (tenths % 10)

end BundleSize

/-- What a report recommends. -/
inductive Recommendation where
  | extractVariables
  | simplifyStructures
  | reviewLowRate
  | useConcatenation (savings : BundleSize)
  deriving Repr, DecidableEq

/-- The wording of a recommendation. -/
def Recommendation.message : Recommendation → String
  | extractVariables =>
    "Consider extracting variables from concatenation patterns to enable static optimization"
  | simplifyStructures =>
    "Many concatenations require full accessibility - consider simplifying component structures"
  | reviewLowRate =>
    "Low optimization rate - review concatenation patterns for static optimization opportunities"
  | useConcatenation savings =>
    "High bundle savings potential: " ++ savings.roundedText ++
      "KB - implement concatenation optimization"

/-- A report about the patterns of a project. -/
structure Report where
  total : Nat
  optimized : Nat
  statics : Nat
  dynamics : Nat
  savings : BundleSize
  tiers : TierCounts
  recommendations : List Recommendation
  deriving Repr, DecidableEq

namespace Report

/-- The size of the concatenation support in a bundle without any optimization. -/
def baseline : BundleSize := ⟨8776⟩

/-- The size of the support for one tier. -/
def perTier : BundleSize := ⟨500⟩

/-- The number of different tiers among the patterns. -/
def distinctTiers (patterns : List ConcatPattern) : Nat :=
  (patterns.map ConcatPattern.tier).eraseDups.length

/-- What can be saved: the baseline less the support for each tier in use, and not less than
nothing. -/
def estimate (patterns : List ConcatPattern) : BundleSize :=
  ⟨baseline.hundredths - perTier.hundredths * distinctTiers patterns⟩

/-- The number of patterns that need a tier. -/
def countTier (tier : Tier) (patterns : List ConcatPattern) : Nat :=
  patterns.countP fun p => p.tier == tier

/-- The number of patterns of a kind. -/
def countKind (kind : PatternKind) (patterns : List ConcatPattern) : Nat :=
  patterns.countP fun p => p.kind == kind

/-- The recommendation, if the condition holds. -/
def recommendIf (condition : Bool) (r : Recommendation) : List Recommendation :=
  if condition then [r] else []

/-- The report about a row of patterns. -/
def ofPatterns (patterns : List ConcatPattern) : Report :=
  let total := patterns.length
  let optimized := patterns.countP ConcatPattern.optimizable
  let statics := countKind .static patterns
  let dynamics := countKind .dynamic patterns
  let tiers : TierCounts :=
    ⟨countTier .minimal patterns, countTier .aria patterns, countTier .full patterns⟩
  let savings := estimate patterns
  { total
    optimized
    statics
    dynamics
    savings
    tiers
    recommendations :=
      recommendIf (statics < dynamics) .extractVariables ++
        recommendIf (tiers.minimal + tiers.aria < tiers.full) .simplifyStructures ++
        recommendIf (10 < total && 2 * optimized < total) .reviewLowRate ++
        recommendIf (5000 < savings.hundredths) (.useConcatenation savings) }

end Report

/-! ## Exchange -/

/-- The pattern as data. -/
def ConcatPattern.json (p : ConcatPattern) : Json :=
  .object
    [("type", .string p.kind.name),
     ("location", .object [("start", .int p.start), ("end", .int p.stop)]),
     ("leftComponent", .string p.left),
     ("rightComponent", .string p.right),
     ("optimizable", .bool p.optimizable),
     ("accessibilityNeeds", .string p.tier.name)]

/-- The size as data: a number of kilobytes. -/
def BundleSize.json (b : BundleSize) : Json :=
  .number (.real ((Decimal.read? b.text).getD 0))

/-- The report as data, with sizes written in the given way. -/
def Report.jsonWith (size : BundleSize → Json) (r : Report) : Json :=
  .object
    [("totalPatterns", .int r.total),
     ("optimizedPatterns", .int r.optimized),
     ("staticPatterns", .int r.statics),
     ("dynamicPatterns", .int r.dynamics),
     ("bundleSavingsKB", size r.savings),
     ("accessibilityBreakdown", .object
       [("minimal", .int r.tiers.minimal), ("aria", .int r.tiers.aria),
        ("full", .int r.tiers.full)]),
     ("recommendations", .array (r.recommendations.map fun m => .string m.message))]

/-- The report as data. -/
def Report.json : Report → Json :=
  Report.jsonWith BundleSize.json

end UiMarkup
