import UiMarkup.Host.Plugin
import UiMarkup.Proofs.Lowercasing
import UiMarkup.Proofs.PathTails

/-!
# Filters and the directories above

What the rules of a filter say of a path they say of it in any directory, so it does not matter how
much of the way to a module its identifier carries. A path in a directory has the tails of the path
and more, and it has the same end in lowercase. The exception is a path that starts with exactly two
separators: its root is lost when a directory is put in front of it.

* `Path.row_suffix`, `Path.tails_subset`: what a path has in a directory.
* `isIncluded_in_directory`, `isExcluded_in_directory`: the two kinds of rules.
* `filters_hold_in_any_directory`: the main statement.
-/

namespace UiMarkup

namespace Path

/-- The row of steps of a path ends the row that it has in a directory. -/
theorem row_suffix {path : String} (h : ¬ isNetwork path) (directory : String) :
    row path <:+ row (directory ++ "/" ++ path) := by
  rw [row, if_neg h, row, steps_append]
  split
  · exact (withoutDrive_suffix _).trans ((List.suffix_append _ _).trans (List.suffix_cons _ _))
  · cases steps directory with
    | nil => exact List.suffix_rfl
    | cons first rest =>
      -- only a step of the directory can be taken for a drive letter
      have hkept : steps path <:+ withoutDrive (first :: rest ++ steps path) := by
        rw [List.cons_append, withoutDrive]
        split
        · exact List.suffix_append _ _
        · exact List.suffix_append (first :: rest) _
      exact (withoutDrive_suffix _).trans hkept

theorem tails_subset {path : String} (h : ¬ isNetwork path) (directory : String) :
    tails path ⊆ tails (directory ++ "/" ++ path) := by
  rw [tails_eq, tails_eq]
  exact joinedSuffixes_subset (row_suffix h directory)

end Path

namespace PathFilter

variable {f : PathFilter} {path : String}

theorem matchesTail_in_directory {rule : Option (String → Bool)} (hpath : ¬ Path.isNetwork path)
    (h : matchesTail rule path) (directory : String) :
    matchesTail rule (directory ++ "/" ++ path) := by
  cases rule with
  | none => exact h
  | some holds =>
    rw [matchesTail, Option.any_some, List.any_eq_true] at h ⊢
    obtain ⟨tail, htail, hholds⟩ := h
    exact ⟨tail, Path.tails_subset hpath directory htail, hholds⟩

theorem isIncluded_in_directory (hpath : ¬ Path.isNetwork path) (h : f.isIncluded path)
    (directory : String) : f.isIncluded (directory ++ "/" ++ path) := by
  rw [isIncluded, Bool.or_eq_true, List.any_eq_true] at h ⊢
  obtain ⟨suffix, hmem, hsuffix⟩ | hglob := h
  · refine .inl ⟨suffix, hmem, ?_⟩
    rw [List.isSuffixOf_iff_suffix] at hsuffix ⊢
    exact hsuffix.trans (Text.lower_suffix_of_slash directory path)
  · exact .inr (matchesTail_in_directory hpath hglob directory)

theorem isExcluded_in_directory (hpath : ¬ Path.isNetwork path) (h : f.isExcluded path)
    (directory : String) : f.isExcluded (directory ++ "/" ++ path) :=
  matchesTail_in_directory hpath h directory

end PathFilter

/-- A module with an excluded path is left as it is. -/
theorem Plugin.not_transforms_of_isExcluded {p : Plugin} {id : String}
    (h : p.filter.isExcluded (stripQuery id)) (code : String) :
    p.transforms id = false ∧ p.transform code id = .ok none := by
  have htransforms : p.transforms id = false := by simp [transforms, PathFilter.accepts, h]
  exact ⟨htransforms, by simp [transform, htransforms]⟩

/-- **Filters hold in any directory.** Whatever the suffixes and the rules of a filter are, a path
that is included is included in any directory, and so it is with a path that is excluded. So no
plugin transforms a module whose path in the project is excluded, whatever directory the project
lies in. -/
theorem filters_hold_in_any_directory (f : PathFilter) (directory path : String)
    (h : ¬ Path.isNetwork path) :
    (f.isIncluded path → f.isIncluded (directory ++ "/" ++ path)) ∧
      (f.isExcluded path → f.isExcluded (directory ++ "/" ++ path)) ∧
      (f.isExcluded path → ∀ (p : Plugin) (id code : String), p.filter = f →
        stripQuery id = directory ++ "/" ++ path →
        p.transforms id = false ∧ p.transform code id = .ok none) := by
  refine ⟨fun hincluded => PathFilter.isIncluded_in_directory h hincluded directory,
    fun hexcluded => PathFilter.isExcluded_in_directory h hexcluded directory,
    fun hexcluded p id code hfilter hid => ?_⟩
  have hexcluded := PathFilter.isExcluded_in_directory h hexcluded directory
  rw [← hfilter, ← hid] at hexcluded
  exact Plugin.not_transforms_of_isExcluded hexcluded code

/-- A drive letter that is one no more, and a capital sigma, on a share of a network. -/
theorem filters_hold_in_any_directory_share :
    let f : PathFilter := ⟨["\\σ.ts"], none, some (· == "lib/Σ.ts")⟩
    let path := "C:\\lib\\.\\Σ.ts"
    let id := "\\\\server\\share/C:\\lib\\.\\Σ.ts?v=1"
    ¬ Path.isNetwork path ∧ f.isIncluded path ∧ f.isExcluded path ∧
      f.isIncluded ("\\\\server\\share" ++ "/" ++ path) ∧
      f.isExcluded ("\\\\server\\share" ++ "/" ++ path) ∧
      (⟨{}, f⟩ : Plugin).transform "Text(\"a\")" id = .ok none := by
  intro f path id
  have hpath : ¬ Path.isNetwork path := by decide +kernel
  have hincluded : f.isIncluded path := by decide +kernel
  have hexcluded : f.isExcluded path := by decide +kernel
  have hid : stripQuery id = "\\\\server\\share" ++ "/" ++ path := by decide +kernel
  obtain ⟨hin, hex, htransform⟩ := filters_hold_in_any_directory f "\\\\server\\share" path hpath
  exact ⟨hpath, hincluded, hexcluded, hin hincluded, hex hexcluded,
    (htransform hexcluded ⟨{}, f⟩ id "Text(\"a\")" rfl hid).2⟩

end UiMarkup
