import Mathlib.Data.List.Sections
import UiMarkup.Host.Plugin
import UiMarkup.Proofs.Lowercasing

/-!
# Component variants and their endings

Two parts of the plugin look at the ending of a path to find out whether it is that of a component
variant: one selects the grammar under which a module is read, the other reloads the page when the
module changes. They do not look for the same endings. The page is reloaded for modules that are
read as component variants only, but not for all of them.

* `Profile.Spells`: a text spells letters, each in some case.
* `Profile.ofFilename_eq_extended_iff`: which names select the grammar of component variants.
* `Plugin.reloadsOn_iff`: the paths of the modules for which the page is reloaded.
* `Plugin.Overlooked`: the component variants for which it is not.
* `page_reloads_for_variants_not_overlooked`: the main statement.
-/

namespace UiMarkup

namespace Profile

/-- The endings of component variants in small letters. -/
def variantEndings : List String :=
  [".tui.js", ".tui.ts", ".tui.jsx", ".tui.tsx"]

/-- Those of scripts without types. -/
def untypedEndings : List String :=
  [".tui.js", ".tui.jsx"]

/-- The text spells the letters, each in some case. -/
def Spells (letters : String) (s : List Char) : Prop :=
  List.Forall₂ (fun letter c => sameLetter letter c) letters.toList s

/-! ## Which names select the grammar -/

theorem startsWithLetters_iff {sets : List (List Char)} {s : List Char} :
    startsWithLetters sets s ↔ ∃ letters ∈ sets.sections, ∃ start, start <+: s ∧
      List.Forall₂ (fun letter c => sameLetter letter c) letters start := by
  induction sets generalizing s with
  | nil => simp [startsWithLetters]
  | cons set sets ih =>
    constructor
    · intro h
      cases s with
      | nil => simp [startsWithLetters] at h
      | cons c s =>
        rw [startsWithLetters, Bool.and_eq_true, List.any_eq_true] at h
        obtain ⟨⟨letter, hletter, hc⟩, hrest⟩ := h
        obtain ⟨letters, hletters, start, hstart, hspelled⟩ := ih.mp hrest
        refine ⟨letter :: letters, ?_, c :: start, ?_, .cons hc hspelled⟩
        · rw [List.mem_sections] at hletters ⊢
          exact .cons hletter hletters
        · exact List.cons_prefix_cons.mpr ⟨rfl, hstart⟩
    · rintro ⟨letters, hletters, start, ⟨rest, rfl⟩, hspelled⟩
      rw [List.mem_sections] at hletters
      obtain ⟨letter, letters', hletter, hletters', rfl⟩ := List.forall₂_cons_right_iff.mp hletters
      obtain ⟨c, start', hc, hspelled', rfl⟩ := List.forall₂_cons_left_iff.mp hspelled
      rw [List.cons_append, startsWithLetters, Bool.and_eq_true, List.any_eq_true]
      exact ⟨⟨letter, hletter, hc⟩, ih.mpr ⟨letters', List.mem_sections.mpr hletters', start',
        List.prefix_append _ _, hspelled'⟩⟩

theorem exists_spelled_start_iff {letters : String} {s : List Char} :
    (∃ start, start <+: s.reverse ∧
      List.Forall₂ (fun letter c => sameLetter letter c) letters.toList.reverse start) ↔
      ∃ ending, Spells letters ending ∧ ending <:+ s := by
  constructor
  · rintro ⟨start, hstart, hspelled⟩
    refine ⟨start.reverse, ?_, List.reverse_prefix.mp (by simpa using hstart)⟩
    exact List.forall₂_reverse_iff.mp (by simpa using hspelled)
  · rintro ⟨ending, hspelled, hending⟩
    exact ⟨ending.reverse, List.reverse_prefix.mpr hending, List.forall₂_reverse_iff.mpr hspelled⟩

theorem isVariantReversed_iff {s : List Char} :
    isVariantReversed s.reverse ↔
      ∃ letters ∈ variantEndings, ∃ ending, Spells letters ending ∧ ending <:+ s := by
  have hx : isVariantReversed s.reverse =
      (startsWithLetters variantEnding s.reverse ||
        startsWithLetters (['x'] :: variantEnding) s.reverse) := by
    unfold isVariantReversed
    cases s.reverse <;> simp [startsWithLetters]
  have hsections : variantEnding.sections ++ (['x'] :: variantEnding).sections =
      variantEndings.map fun letters => letters.toList.reverse := by decide
  simp only [hx, Bool.or_eq_true, startsWithLetters_iff, ← exists_or, ← or_and_right,
    ← List.mem_append, hsections, List.mem_map, exists_exists_and_eq_and, exists_spelled_start_iff]

theorem exists_letter_of_spells {letters : String} {s t : List Char} {c : Char}
    (h : Spells letters (s ++ c :: t)) : ∃ letter ∈ letters.toList, sameLetter letter c := by
  have hdrop := List.forall₂_drop_append _ s (c :: t) h
  obtain ⟨letter, rest, hletter, -, hcons⟩ := List.forall₂_cons_right_iff.mp hdrop
  have hmem : letter ∈ letters.toList.drop s.length := hcons ▸ List.mem_cons_self
  exact ⟨letter, List.mem_of_mem_drop hmem, hletter⟩

/-- No letter of an ending is a line end. -/
theorem not_spells_newline {letters : String} (h : letters ∈ variantEndings) (s : List Char) :
    ¬ Spells letters (s ++ ['\n']) := by
  intro hspelled
  obtain ⟨letter, hletter, hsame⟩ := exists_letter_of_spells hspelled
  have hnewline : ∀ letters ∈ variantEndings,
      letters.toList.all fun letter => !sameLetter letter '\n' := by decide
  have hletter := List.all_eq_true.mp (hnewline letters h) letter hletter
  rw [hsame] at hletter
  exact Bool.false_ne_true hletter

theorem not_suffix_newline {letters : String} (h : letters ∈ variantEndings) {ending : List Char}
    (hspelled : Spells letters ending) (s : List Char) : ¬ ending <:+ s ++ ['\n'] := by
  rw [List.suffix_concat_iff]
  rintro (rfl | ⟨rest, rfl, -⟩)
  · have hne : ∀ letters ∈ variantEndings, letters.toList ≠ [] := by decide
    exact hne letters h (List.forall₂_nil_right_iff.mp hspelled)
  · exact not_spells_newline h rest hspelled

/-- The names that select the grammar of component variants: they end with one of the endings, in
any case, and one line end may follow. -/
theorem ofFilename_eq_extended_iff {filename : String} :
    ofFilename filename = .extended ↔ ∃ letters ∈ variantEndings, ∃ ending, Spells letters ending ∧
      (ending <:+ filename.toList ∨ ending ++ ['\n'] <:+ filename.toList) := by
  have hextended (s : List Char) : (if isVariantReversed s.reverse then extended else plain) =
      extended ↔ ∃ letters ∈ variantEndings, ∃ ending, Spells letters ending ∧ ending <:+ s := by
    rw [← isVariantReversed_iff]
    split <;> simp_all
  rw [ofFilename]
  generalize filename.toList = s
  by_cases hline : ['\n'] <:+ s
  · obtain ⟨s, rfl⟩ := hline
    rw [List.reverse_append, List.reverse_singleton, List.singleton_append, List.head?_cons,
      if_pos (beq_self_eq_true _), List.tail_cons, hextended]
    constructor
    · rintro ⟨letters, hletters, ending, hspelled, hending⟩
      exact ⟨letters, hletters, ending, hspelled, .inr (List.suffix_append_self_iff.mpr hending)⟩
    · rintro ⟨letters, hletters, ending, hspelled, hending | hending⟩
      · exact absurd hending (not_suffix_newline hletters hspelled s)
      · exact ⟨letters, hletters, ending, hspelled, List.suffix_append_self_iff.mp hending⟩
  · have hhead : (s.reverse.head? == some '\n') = false := by
      rw [List.head?_reverse, beq_eq_false_iff_ne]
      intro hlast
      obtain ⟨rest, rfl⟩ := List.getLast?_eq_some_iff.mp hlast
      exact hline (List.suffix_append _ _)
    rw [hhead, if_neg Bool.false_ne_true, hextended]
    constructor
    · rintro ⟨letters, hletters, ending, hspelled, hending⟩
      exact ⟨letters, hletters, ending, hspelled, .inl hending⟩
    · rintro ⟨letters, hletters, ending, hspelled, hending | hending⟩
      · exact ⟨letters, hletters, ending, hspelled, hending⟩
      · exact absurd ((List.suffix_append _ _).trans hending) hline

/-! ## One ending for each name -/

theorem sameLetter_unique {letter letter' c : Char} (hascii : letter.toNat < 0x80)
    (hascii' : letter'.toNat < 0x80) (h : sameLetter letter c) (h' : sameLetter letter' c) :
    letter = letter' := by
  have hc : c.toLower.toNat < 0x80 → c.toNat < 0x80 := Text.toNat_lt_of_toLower
  simp only [sameLetter, Bool.or_eq_true, Bool.and_eq_true, beq_iff_eq] at h h'
  grind

theorem isAscii_of_mem_variantEndings {letters : String} (h : letters ∈ variantEndings) :
    Text.IsAscii letters.toList := by
  have hall : ∀ letters ∈ variantEndings,
      letters.toList.all fun c => c.toNat < 0x80 ∧ c ≠ 'k' := by decide
  intro c hc
  simpa using List.all_eq_true.mp (hall letters h) c hc

/-- Of two endings that are spelled at the end of a text, the shorter one ends the longer one. So
there are no two. -/
theorem Spells.unique_of_suffix {letters letters' : String} (h : letters ∈ variantEndings)
    (h' : letters' ∈ variantEndings) {ending ending' : List Char} (hspelled : Spells letters ending)
    (hspelled' : Spells letters' ending') (hsuffix : ending' <:+ ending) :
    letters = letters' ∧ ending = ending' := by
  have hunique : Relator.LeftUnique fun letter c => letter.toNat < 0x80 ∧ sameLetter letter c :=
    fun _ _ _ hl hl' => sameLetter_unique hl.1 hl'.1 hl.2 hl'.2
  have hsuffixes : ∀ a ∈ variantEndings, ∀ b ∈ variantEndings, b.toList <:+ a.toList → a = b := by
    decide
  obtain ⟨start, hstart⟩ := hsuffix
  have hdrop := List.forall₂_drop_append letters.toList start ending' (hstart ▸ hspelled)
  have heq : letters.toList.drop start.length = letters'.toList := by
    refine List.left_unique_forall₂' hunique ((List.forall₂_and_left _ _).mpr ⟨?_, hdrop⟩)
      ((List.forall₂_and_left _ _).mpr ⟨?_, hspelled'⟩)
    · exact fun c hc => (isAscii_of_mem_variantEndings h c (List.mem_of_mem_drop hc)).1
    · exact fun c hc => (isAscii_of_mem_variantEndings h' c hc).1
  obtain rfl := hsuffixes letters h letters' h' (heq ▸ List.drop_suffix _ _)
  have hlength := hspelled.length_eq.symm.trans hspelled'.length_eq
  exact ⟨rfl, (List.IsSuffix.eq_of_length ⟨start, hstart⟩ hlength.symm).symm⟩

theorem Spells.unique {letters letters' : String} (h : letters ∈ variantEndings)
    (h' : letters' ∈ variantEndings) {s ending ending' : List Char}
    (hspelled : Spells letters ending) (hspelled' : Spells letters' ending')
    (hending : ending <:+ s) (hending' : ending' <:+ s) :
    letters = letters' ∧ ending = ending' := by
  obtain hle | hle := List.suffix_or_suffix_of_suffix hending' hending
  · exact hspelled.unique_of_suffix h h' hspelled' hle
  · obtain ⟨hletters, heq⟩ := hspelled'.unique_of_suffix h' h hspelled hle
    exact ⟨hletters.symm, heq.symm⟩

end Profile

namespace Plugin

theorem mem_variantEndings_iff {letters : String} :
    letters ∈ Profile.variantEndings ↔
      letters ∈ componentEndings ∨ letters ∈ Profile.untypedEndings := by
  simp only [Profile.variantEndings, componentEndings, Profile.untypedEndings, List.mem_cons,
    List.not_mem_nil, or_false]
  tauto

/-- The paths of the modules for which the page is reloaded: they end with one of two endings, in
any case of ASCII letters. -/
theorem reloadsOn_iff {id : String} :
    reloadsOn id ↔ ∃ letters ∈ componentEndings, ∃ ending, ending <:+ (stripQuery id).toList ∧
      ending.map Char.toLower = letters.toList := by
  rw [reloadsOn, List.any_eq_true]
  refine exists_congr fun letters => and_congr_right fun hletters => ?_
  have hascii := Profile.isAscii_of_mem_variantEndings (mem_variantEndings_iff.mpr (.inl hletters))
  rw [List.isSuffixOf_iff_suffix, Text.suffix_lower_iff hascii]

/-- Letters that are the lowercase of a text are spelled by it. -/
theorem spells_of_map_toLower {letters : String} {ending : List Char}
    (h : ending.map Char.toLower = letters.toList) : Profile.Spells letters ending := by
  rw [Profile.Spells, ← h, List.forall₂_map_left_iff, List.forall₂_same]
  intro c _
  simp [Profile.sameLetter]

/-- A text in ASCII that spells letters has them as its lowercase. -/
theorem map_toLower_of_spells {letters : String} {ending : List Char}
    (h : Profile.Spells letters ending) (hascii : ∀ c ∈ ending, c.toNat < 0x80) :
    ending.map Char.toLower = letters.toList := by
  unfold Profile.Spells at h
  generalize letters.toList = row at h ⊢
  induction h with
  | nil => rfl
  | cons hc _ ih =>
    obtain ⟨hlow, hrest⟩ := List.forall_mem_cons.mp hascii
    rw [List.map_cons, ih hrest]
    simp only [Profile.sameLetter, Bool.or_eq_true, Bool.and_eq_true, beq_iff_eq] at hc
    obtain (hc | ⟨-, hc⟩) | ⟨-, hc⟩ := hc
    · rw [hc]
    · omega
    · omega

/-- The path is that of a component variant, but not of one for which the page is reloaded. -/
inductive Overlooked (path : String) : Prop where
  /-- The ending is that of a script without types. -/
  | untyped {letters : String} {ending : List Char} (hletters : letters ∈ Profile.untypedEndings)
      (hspelled : Profile.Spells letters ending) (hending : ending <:+ path.toList)
  /-- A line end follows the ending. -/
  | lineEnd {letters : String} {ending : List Char} (hletters : letters ∈ Profile.variantEndings)
      (hspelled : Profile.Spells letters ending) (hending : ending ++ ['\n'] <:+ path.toList)
  /-- A character of the ending stands for an ASCII letter. -/
  | letter {letters : String} {ending : List Char} {c : Char}
      (hletters : letters ∈ Profile.variantEndings) (hspelled : Profile.Spells letters ending)
      (hending : ending <:+ path.toList) (hc : c ∈ ending) (hbeyond : 0x80 ≤ c.toNat)

theorem Overlooked.extended {path : String} (h : Overlooked path) :
    Profile.ofFilename path = .extended := by
  rw [Profile.ofFilename_eq_extended_iff]
  cases h with
  | untyped hletters hspelled hending =>
    exact ⟨_, mem_variantEndings_iff.mpr (.inr hletters), _, hspelled, .inl hending⟩
  | lineEnd hletters hspelled hending => exact ⟨_, hletters, _, hspelled, .inr hending⟩
  | letter hletters hspelled hending _ _ => exact ⟨_, hletters, _, hspelled, .inl hending⟩

/-- The page is not reloaded for what is overlooked. -/
theorem Overlooked.not_reloadsOn {id : String} (h : Overlooked (stripQuery id)) :
    ¬ reloadsOn id := by
  rw [reloadsOn_iff]
  rintro ⟨letters, hletters, ending, hending, hlower⟩
  have hmem := mem_variantEndings_iff.mpr (.inl hletters)
  have hspelled := spells_of_map_toLower hlower
  cases h with
  | untyped hletters' hspelled' hending' =>
    obtain ⟨rfl, -⟩ := Profile.Spells.unique hmem (mem_variantEndings_iff.mpr (.inr hletters'))
      hspelled hspelled' hending hending'
    have hapart : ∀ letters ∈ componentEndings, letters ∉ Profile.untypedEndings := by decide
    exact hapart _ hletters hletters'
  | lineEnd hletters' hspelled' hending' =>
    obtain ⟨stem, hstem⟩ := hending'
    rw [← hstem, ← List.append_assoc] at hending
    exact Profile.not_suffix_newline hmem hspelled _ hending
  | letter hletters' hspelled' hending' hc hbeyond =>
    obtain ⟨-, rfl⟩ := Profile.Spells.unique hmem hletters' hspelled hspelled' hending hending'
    have hlow := (Profile.isAscii_of_mem_variantEndings hmem _
      (hlower ▸ List.mem_map_of_mem hc)).1
    have := Text.toNat_lt_of_toLower hlow
    omega

theorem reloadsOn_of_not_overlooked {id : String}
    (hextended : Profile.ofFilename (stripQuery id) = .extended)
    (h : ¬ Overlooked (stripQuery id)) : reloadsOn id := by
  obtain ⟨letters, hletters, ending, hspelled, hending | hending⟩ :=
    Profile.ofFilename_eq_extended_iff.mp hextended
  · have hascii (c : Char) (hc : c ∈ ending) : c.toNat < 0x80 :=
      Nat.not_le.mp fun hbeyond => h (.letter hletters hspelled hending hc hbeyond)
    obtain hcomponent | huntyped := mem_variantEndings_iff.mp hletters
    · exact reloadsOn_iff.mpr ⟨letters, hcomponent, ending, hending,
        map_toLower_of_spells hspelled hascii⟩
    · exact absurd (.untyped huntyped hspelled hending) h
  · exact absurd (.lineEnd hletters hspelled hending) h

/-- What becomes of the code of a module that is read under the profile. -/
def transformUnder (p : Plugin) (profile : Profile) (code path : String) :
    Except OversizedInteger (Option TransformedModule) :=
  ((Survey.ofSource profile code).forest code).map fun forest =>
    if forest.nodes.isEmpty then none
    else some
      { module := generate (p.buildOptions path) .builtIn forest.nodes
        sideEffects := if p.options.transform.treeShaking then some false else none }

theorem transform_eq_transformUnder {p : Plugin} {id : String} (h : p.transforms id)
    (code : String) :
    p.transform code id = p.transformUnder (.ofFilename (stripQuery id)) code (stripQuery id) := by
  have hread : (Survey.ofSource (.ofFilename (stripQuery id)) code).forest code =
      parse code (stripQuery id) := rfl
  rw [transformUnder, hread]
  simp only [transform, h, Bool.not_true, Bool.false_eq_true, if_false]
  cases parse code (stripQuery id) with
  | error e => rfl
  | ok forest =>
    dsimp only [Except.map]
    split <;> rfl

/-- **The page is reloaded for component variants,** and for nothing else, unless their paths are
overlooked: those are read under the grammar of component variants as well, but a change of them
does not reload the page. -/
theorem page_reloads_for_variants_not_overlooked (id : String) :
    (reloadsOn id ↔
        Profile.ofFilename (stripQuery id) = .extended ∧ ¬ Overlooked (stripQuery id)) ∧
      (Overlooked (stripQuery id) → Profile.ofFilename (stripQuery id) = .extended) ∧
      ∀ (p : Plugin) (code : String), p.transforms id →
        p.transform code id =
          p.transformUnder (.ofFilename (stripQuery id)) code (stripQuery id) := by
  refine ⟨⟨fun hreloads => ⟨?_, fun h => h.not_reloadsOn hreloads⟩,
    fun h => reloadsOn_of_not_overlooked h.1 h.2⟩, Overlooked.extended,
    fun p code htransforms => transform_eq_transformUnder htransforms code⟩
  obtain ⟨letters, hletters, ending, hending, hlower⟩ := reloadsOn_iff.mp hreloads
  exact Profile.ofFilename_eq_extended_iff.mpr ⟨letters, mem_variantEndings_iff.mpr (.inl hletters),
    ending, spells_of_map_toLower hlower, .inl hending⟩

/-- A script without types is read as a component variant, and the page is not reloaded for it. -/
theorem page_not_reloaded_for_untyped_script :
    Profile.ofFilename (stripQuery "/src/Counter.tui.jsx") = .extended ∧
      ¬ reloadsOn "/src/Counter.tui.jsx" := by
  decide +kernel

end Plugin

end UiMarkup
