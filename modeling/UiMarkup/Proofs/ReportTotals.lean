import Mathlib.Data.List.Induction
import Mathlib.Data.List.Nodup
import UiMarkup.Analysis.Scan
import UiMarkup.Proofs.BuildConcat

/-!
# The totals of a report

A report counts patterns in several ways: by kind, by tier, and by whether they can be optimized. On
patterns that the analysis found, the counts agree with each other, and so do the recommendations.
The order of the patterns does not matter, and counts of several rows of patterns add up.

* `ConcatPattern.Found`: the analysis of some document gives the pattern.
* `ConcatPattern.Coherent`: the kind, the tier and the flag of a pattern fit together, as they do if
  the pattern was found.
* `Report.Consistent`: the counts and the recommendations of a report agree.
* `Report.ofPatterns_perm`, `Report.ofPatterns_append`, `Report.estimate_le`: other rows of
  patterns.
* `reports_are_consistent_and_order_free`: the main statement.
-/

namespace UiMarkup

/-! ## Patterns that were found -/

namespace ConcatPattern

/-- The analysis of some document, a text with any tree whatsoever, gives the pattern. -/
def Found (p : ConcatPattern) : Prop :=
  ∃ d : TypeScript.Document, p ∈ Analysis.patterns d

/-- The kind and the tier of the pattern are ones that the analysis knows, and the pattern can be
optimized if it is static. -/
structure Coherent (p : ConcatPattern) : Prop where
  kind : p.kind = .static ∨ p.kind = .dynamic
  tier : p.tier = .minimal ∨ p.tier = .aria ∨ p.tier = .full
  optimizable : p.optimizable = true ↔ p.kind = .static

end ConcatPattern

theorem Analysis.tierOf_eq (full : Bool) (left right : List Char) :
    tierOf full left right = .minimal ∨ tierOf full left right = .aria ∨
      tierOf full left right = .full := by
  unfold tierOf
  split
  · exact .inr (.inr rfl)
  · split
    · exact .inr (.inl rfl)
    · exact .inl rfl

theorem Analysis.Describes.coherent {d : TypeScript.Document} {call left right : TypeScript.Tree}
    {p : ConcatPattern} (h : Describes d call left right p) : p.Coherent where
  kind := by
    by_cases hvaries : Varies d left ∨ Varies d right
    · exact .inr (h.dynamic.mpr hvaries)
    · exact .inl (h.static.mpr hvaries)
  tier := by
    rw [h.tier]
    exact tierOf_eq _ _ _
  optimizable := h.optimizable

theorem ConcatPattern.Found.coherent {p : ConcatPattern} (h : p.Found) : p.Coherent := by
  obtain ⟨d, hp⟩ := h
  obtain ⟨call, -, hcall⟩ := List.mem_filterMap.mp hp
  obtain ⟨left, right, -, hdescribes⟩ := Analysis.describes_of_patternAt? hcall
  exact hdescribes.coherent

/-- What the analysis of a source gives was found, whichever parser reads the source. -/
theorem found_of_analyze {parser : TypeScript.SourceParser} {source : String}
    {filename : Option String} {patterns : List ConcatPattern} {p : ConcatPattern}
    (h : analyze parser source filename = .ok patterns) (hp : p ∈ patterns) : p.Found := by
  unfold analyze at h
  split at h
  · cases h
  · next parsed _ =>
    split at h
    · cases h
    · obtain rfl := Except.ok.inj h
      exact ⟨_, hp⟩

/-- The patterns of a scan are those that the analysis gives for its files. -/
theorem ProjectAnalysis.exists_of_mem_patterns {analyzer : Analyzer} {directory : String}
    {files : List SourceFile} {p : ConcatPattern}
    (h : p ∈ (ofFiles analyzer directory files).patterns) :
    ∃ text filename patterns, analyzer text filename = .ok patterns ∧ p ∈ patterns := by
  simp only [patterns, ProjectAnalysis.files, ofFiles, List.mem_flatMap, List.mem_filterMap,
    List.mem_map, Option.map_eq_some_iff] at h
  obtain ⟨listed, ⟨outcome, ⟨f, -, rfl⟩, patterns, hpatterns, rfl⟩, hp⟩ := h
  unfold FileOutcome.ofFile at hpatterns
  split at hpatterns
  · cases hpatterns
  · split at hpatterns
    · obtain rfl := Option.some.inj hpatterns
      cases hp
    · next text _ _ found hanalyzer =>
      obtain rfl : found = patterns := Option.some.inj hpatterns
      exact ⟨text, some f.path, found, hanalyzer, hp⟩

/-- Each item is listed once. -/
theorem nodup_eraseDups {α : Type} [BEq α] [LawfulBEq α] (l : List α) : l.eraseDups.Nodup := by
  induction l using List.reverseRecOn with
  | nil => simp
  | append_singleton l a ih =>
    by_cases ha : a ∈ l
    · simpa [List.eraseDups_append, List.removeAll, ha] using ih
    · have hnew : (l ++ [a]).eraseDups = l.eraseDups ++ [a] := by
        simp [List.eraseDups_append, List.removeAll, List.eraseDups_cons, ha]
      rw [hnew, List.nodup_append]
      refine ⟨ih, List.nodup_singleton a, ?_⟩
      rintro b hb c hc rfl
      rw [List.mem_singleton] at hc
      exact ha (hc ▸ List.mem_eraseDups.mp hb)

namespace Report

/-! ## Counts -/

theorem countKind_append (kind : PatternKind) (ps qs : List ConcatPattern) :
    countKind kind (ps ++ qs) = countKind kind ps + countKind kind qs :=
  List.countP_append

theorem countTier_append (tier : Tier) (ps qs : List ConcatPattern) :
    countTier tier (ps ++ qs) = countTier tier ps + countTier tier qs :=
  List.countP_append

/-- Every pattern that was found is of one of the two kinds. -/
theorem countKind_add_countKind {ps : List ConcatPattern} (h : ∀ p ∈ ps, p.Coherent) :
    countKind .static ps + countKind .dynamic ps = ps.length := by
  induction ps with
  | nil => rfl
  | cons p ps ih =>
    have hrest := ih fun q hq => h q (List.mem_cons_of_mem p hq)
    simp only [countKind, List.countP_cons, List.length_cons] at hrest ⊢
    rcases (h p List.mem_cons_self).kind with hkind | hkind <;> simp [hkind] <;> omega

/-- Every pattern that was found needs one of the three tiers. -/
theorem countTier_add_countTier {ps : List ConcatPattern} (h : ∀ p ∈ ps, p.Coherent) :
    countTier .minimal ps + countTier .aria ps + countTier .full ps = ps.length := by
  induction ps with
  | nil => rfl
  | cons p ps ih =>
    have hrest := ih fun q hq => h q (List.mem_cons_of_mem p hq)
    simp only [countTier, List.countP_cons, List.length_cons] at hrest ⊢
    rcases (h p List.mem_cons_self).tier with htier | htier | htier <;> simp [htier] <;> omega

theorem countP_optimizable {ps : List ConcatPattern} (h : ∀ p ∈ ps, p.Coherent) :
    ps.countP ConcatPattern.optimizable = countKind .static ps := by
  refine List.countP_congr fun p hp => ?_
  rw [(h p hp).optimizable, beq_iff_eq]

/-! ## Recommendations -/

theorem mem_recommendIf {condition : Bool} {r r' : Recommendation} :
    r' ∈ recommendIf condition r ↔ condition = true ∧ r' = r := by
  cases condition <;> simp [recommendIf]

theorem extractVariables_mem_iff (ps : List ConcatPattern) :
    .extractVariables ∈ (ofPatterns ps).recommendations ↔
      (ofPatterns ps).statics < (ofPatterns ps).dynamics := by
  simp [ofPatterns, mem_recommendIf]

theorem reviewLowRate_mem_iff (ps : List ConcatPattern) :
    .reviewLowRate ∈ (ofPatterns ps).recommendations ↔
      10 < (ofPatterns ps).total ∧ 2 * (ofPatterns ps).optimized < (ofPatterns ps).total := by
  simp [ofPatterns, mem_recommendIf]

/-- The counts and the recommendations of the report agree: the two kinds, and the three tiers, make
up all patterns; what can be optimized is what is static; variables should be extracted if less than
half of the patterns are static, and of more than ten patterns that is a low rate. -/
structure Consistent (r : Report) : Prop where
  kinds : r.total = r.statics + r.dynamics
  tiers : r.total = r.tiers.minimal + r.tiers.aria + r.tiers.full
  optimized : r.optimized = r.statics
  extractVariables : .extractVariables ∈ r.recommendations ↔ 2 * r.statics < r.total
  reviewLowRate : .reviewLowRate ∈ r.recommendations ↔
    10 < r.total ∧ .extractVariables ∈ r.recommendations

theorem consistent_ofPatterns {ps : List ConcatPattern} (h : ∀ p ∈ ps, p.Coherent) :
    (ofPatterns ps).Consistent := by
  have hkinds : (ofPatterns ps).total = (ofPatterns ps).statics + (ofPatterns ps).dynamics :=
    (countKind_add_countKind h).symm
  have hoptimized : (ofPatterns ps).optimized = (ofPatterns ps).statics := countP_optimizable h
  have hextract : .extractVariables ∈ (ofPatterns ps).recommendations ↔
      2 * (ofPatterns ps).statics < (ofPatterns ps).total := by
    rw [extractVariables_mem_iff]
    omega
  refine ⟨hkinds, (countTier_add_countTier h).symm, hoptimized, hextract, ?_⟩
  rw [reviewLowRate_mem_iff, hextract, hoptimized]

/-! ## Several rows of patterns -/

/-- Each count of the report is the sum of those counts of `r` and `s`. -/
structure Sums (r s report : Report) : Prop where
  total : report.total = r.total + s.total
  optimized : report.optimized = r.optimized + s.optimized
  statics : report.statics = r.statics + s.statics
  dynamics : report.dynamics = r.dynamics + s.dynamics
  minimal : report.tiers.minimal = r.tiers.minimal + s.tiers.minimal
  aria : report.tiers.aria = r.tiers.aria + s.tiers.aria
  full : report.tiers.full = r.tiers.full + s.tiers.full

theorem ofPatterns_append (ps qs : List ConcatPattern) :
    Sums (ofPatterns ps) (ofPatterns qs) (ofPatterns (ps ++ qs)) where
  total := List.length_append
  optimized := List.countP_append
  statics := countKind_append _ _ _
  dynamics := countKind_append _ _ _
  minimal := countTier_append _ _ _
  aria := countTier_append _ _ _
  full := countTier_append _ _ _

/-- More patterns have at least as many tiers. -/
theorem distinctTiers_le {ps qs : List ConcatPattern} (h : ps ⊆ qs) :
    distinctTiers ps ≤ distinctTiers qs := by
  refine (nodup_eraseDups _).length_le_of_subset fun tier htier => ?_
  rw [List.mem_eraseDups] at htier ⊢
  exact List.map_subset _ h htier

/-- More patterns leave no more to be saved. -/
theorem estimate_le {ps qs : List ConcatPattern} (h : ps ⊆ qs) :
    (estimate qs).hundredths ≤ (estimate ps).hundredths :=
  Nat.sub_le_sub_left (Nat.mul_le_mul_left _ (distinctTiers_le h)) _

/-- The order of the patterns does not matter. -/
theorem ofPatterns_perm {ps qs : List ConcatPattern} (h : ps.Perm qs) :
    ofPatterns ps = ofPatterns qs := by
  have htiers : distinctTiers ps = distinctTiers qs :=
    Nat.le_antisymm (distinctTiers_le h.subset) (distinctTiers_le h.symm.subset)
  unfold ofPatterns countKind countTier estimate
  rw [htiers, h.length_eq]
  simp only [h.countP_eq]

end Report

/-- **Reports are consistent, and the order of the patterns does not matter.** In the report about
patterns that the analysis found, such as those of the files of a project that any parser reads,
counts and recommendations agree. The counts of two rows of patterns add up, the report is the same
in any order of the patterns, and with more patterns there is never more to be saved. -/
theorem reports_are_consistent_and_order_free (ps : List ConcatPattern) (h : ∀ p ∈ ps, p.Found) :
    (Report.ofPatterns ps).Consistent ∧
      (∀ qs, Report.Sums (.ofPatterns ps) (.ofPatterns qs) (.ofPatterns (ps ++ qs))) ∧
      (∀ qs, ps.Perm qs → Report.ofPatterns qs = Report.ofPatterns ps) ∧
      (∀ qs, ps ⊆ qs →
        (Report.ofPatterns qs).savings.hundredths ≤ (Report.ofPatterns ps).savings.hundredths) ∧
      ∀ parser directory files,
        (ProjectAnalysis.ofFiles (analyze parser) directory files).report.Consistent := by
  refine ⟨Report.consistent_ofPatterns fun p hp => (h p hp).coherent, Report.ofPatterns_append ps,
    fun qs hperm => Report.ofPatterns_perm hperm.symm, fun qs hsubset => Report.estimate_le hsubset,
    fun parser directory files => Report.consistent_ofPatterns fun p hp => ?_⟩
  obtain ⟨text, filename, patterns, hanalyze, hp⟩ := ProjectAnalysis.exists_of_mem_patterns hp
  exact (found_of_analyze hanalyze hp).coherent

/-- Twelve patterns, eleven of which hold something dynamic. -/
theorem reports_are_consistent_and_order_free_twelve :
    let static : TypeScript.Document := ⟨"a.build().concat(Link)".toList,
      Analysis.callTree (Analysis.callTree (Analysis.leaf .identifier 0 1) 7 9 []) 16 22
        [Analysis.leaf .identifier 17 21]⟩
    let dynamic : TypeScript.Document := ⟨"x[0].build().concat(b)".toList,
      Analysis.callTree (Analysis.callTree (Analysis.subscriptTree 0 4) 10 12 []) 19 22
        [Analysis.leaf .identifier 20 21]⟩
    let found := (static :: List.replicate 11 dynamic).flatMap Analysis.patterns
    (∀ p ∈ found, p.Found) ∧ (Report.ofPatterns found).Consistent ∧
      (Report.ofPatterns found).total = 12 ∧ (Report.ofPatterns found).statics = 1 ∧
      .reviewLowRate ∈ (Report.ofPatterns found).recommendations ∧
      Report.ofPatterns found.reverse = Report.ofPatterns found := by
  intro static dynamic found
  have hfound : ∀ p ∈ found, p.Found := fun p hp => by
    obtain ⟨d, -, hp⟩ := List.mem_flatMap.mp hp
    exact ⟨d, hp⟩
  obtain ⟨hconsistent, -, hperm, -⟩ := reports_are_consistent_and_order_free found hfound
  have hcounts : (Report.ofPatterns found).total = 12 ∧ (Report.ofPatterns found).statics = 1 := by
    decide +kernel
  refine ⟨hfound, hconsistent, hcounts.1, hcounts.2, ?_, hperm _ found.reverse_perm.symm⟩
  rw [hconsistent.reviewLowRate, hconsistent.extractVariables]
  omega

end UiMarkup
