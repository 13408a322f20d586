import Mathlib.Data.List.Nodup
import UiMarkup.Analysis.Scan

/-!
# The files that a scan lists

Which files of a directory a scan lists depends on nothing but where each file is: on the names of
the directories on the way to it and on its own name. The order of the entries, and what else the
directories hold, does not matter.

* `FileTree.locatedIn`: all files of a directory, with the way to each.
* `filesIn_eq_filterMap`: the listed files are those that the rules let through one by one.
* `list_eq_of_perm`: the listing does not depend on the order of the entries.
* `exists_list_eq_append`: one more file is inserted into the listing, and nothing else changes.
-/

namespace UiMarkup

/-- A file below a directory: the names of the directories that lead to it, its name and its
content. -/
structure LocatedFile where
  directories : List String
  name : String
  content : FileContent
  deriving Repr, DecidableEq

namespace LocatedFile

/-- The path of the file, if that of the directory is `base`. -/
def pathFrom (base : String) (f : LocatedFile) : String :=
  f.directories.foldl (fun base directory => base ++ directory ++ "/") base ++ f.name

/-- The path of the file, relative to the directory. -/
def path (f : LocatedFile) : String :=
  f.pathFrom ""

/-- The file, seen from the directory above. -/
def under (directory : String) (f : LocatedFile) : LocatedFile :=
  { f with directories := directory :: f.directories }

/-- The file as a scan sees it. -/
def source (f : LocatedFile) : SourceFile :=
  ⟨f.path, f.content⟩

end LocatedFile

namespace FileTree

mutual
/-- The files at or below an entry of a directory. -/
def located : FileTree → List LocatedFile
  | file name content => [⟨[], name, content⟩]
  | directory name entries => (locatedIn entries).map (LocatedFile.under name)

/-- The files at or below the entries of a directory. -/
def locatedIn : List FileTree → List LocatedFile
  | [] => []
  | entry :: entries => entry.located ++ locatedIn entries
end

/-- No two files of the directory have the same path. -/
def Unambiguous (entries : List FileTree) : Prop :=
  ((locatedIn entries).map LocatedFile.path).Nodup

instance (entries : List FileTree) : Decidable (Unambiguous entries) :=
  inferInstanceAs (Decidable (List.Nodup _))

end FileTree

namespace ScanRules

/-- The rules let the file through: they prune no directory on the way to it, and take it. -/
def admits (rules : ScanRules) (base : String) :
    (directories : List String) → (name : String) → Bool
  | [], name => rules.takes (base ++ name)
  | directory :: directories, name =>
    !rules.prunes directory (base ++ directory ++ "/") &&
      rules.admits (base ++ directory ++ "/") directories name

/-- The file as it is listed, if the rules let it through. -/
def listed? (rules : ScanRules) (base : String) (f : LocatedFile) : Option SourceFile :=
  if rules.admits base f.directories f.name then some ⟨f.pathFrom base, f.content⟩ else none

theorem listed?_under (rules : ScanRules) (base directory : String) (f : LocatedFile) :
    rules.listed? base (f.under directory) =
      if rules.prunes directory (base ++ directory ++ "/") then none
      else rules.listed? (base ++ directory ++ "/") f := by
  by_cases h : rules.prunes directory (base ++ directory ++ "/") <;>
    simp [listed?, LocatedFile.under, admits, LocatedFile.pathFrom, h]

mutual
theorem filesOf_eq_filterMap (rules : ScanRules) (base : String) :
    (entry : FileTree) → rules.filesOf base entry = entry.located.filterMap (rules.listed? base)
  | .file name content => by
    by_cases h : rules.takes (base ++ name) <;>
      simp [filesOf, FileTree.located, listed?, admits, LocatedFile.pathFrom, h]
  | .directory name entries => by
    rw [filesOf, FileTree.located, List.filterMap_map, filesIn_eq_filterMap rules _ entries]
    have hunder : rules.listed? base ∘ LocatedFile.under name = _ :=
      funext fun f => listed?_under rules base name f
    rw [hunder]
    split <;> simp

/-- The listed files are those that the rules let through one by one. -/
theorem filesIn_eq_filterMap (rules : ScanRules) (base : String) :
    (entries : List FileTree) →
      rules.filesIn base entries = (FileTree.locatedIn entries).filterMap (rules.listed? base)
  | [] => rfl
  | entry :: entries => by
    rw [filesIn, FileTree.locatedIn, List.filterMap_append, filesOf_eq_filterMap rules base entry,
      filesIn_eq_filterMap rules base entries]
end

theorem eq_source_of_listed? {rules : ScanRules} {f : LocatedFile} {s : SourceFile}
    (h : rules.listed? "" f = some s) : s = f.source := by
  rw [listed?, Option.ite_none_right_eq_some] at h
  exact (Option.some.inj h.2).symm

/-! ## The sorted listing -/

theorem path_le_trans (a b c : SourceFile) (hab : decide (a.path ≤ b.path) = true)
    (hbc : decide (b.path ≤ c.path) = true) : decide (a.path ≤ c.path) = true :=
  decide_eq_true (String.le_trans (of_decide_eq_true hab) (of_decide_eq_true hbc))

theorem path_le_total (a b : SourceFile) :
    (decide (a.path ≤ b.path) || decide (b.path ≤ a.path)) = true := by
  simpa using String.le_total a.path b.path

theorem mem_list {rules : ScanRules} {entries : List FileTree} {s : SourceFile} :
    s ∈ rules.list entries ↔ ∃ f ∈ FileTree.locatedIn entries, rules.listed? "" f = some s := by
  rw [list, List.mem_mergeSort, filesIn_eq_filterMap, List.mem_filterMap]

theorem paths_nodup {entries : List FileTree} (h : FileTree.Unambiguous entries)
    (rules : ScanRules) : ((rules.list entries).map SourceFile.path).Nodup := by
  rw [list, ((List.mergeSort_perm _ _).map _).nodup_iff, filesIn_eq_filterMap, List.Nodup,
    List.pairwise_map, List.pairwise_filterMap]
  refine (List.pairwise_map.mp h).imp fun hne s hs s' hs' => ?_
  rw [eq_source_of_listed? hs, eq_source_of_listed? hs']
  exact hne

/-- The rules list the file, wherever it stands among the entries. -/
theorem listed?_of_mem_list {rules : ScanRules} {entries : List FileTree} {f : LocatedFile}
    (h : FileTree.Unambiguous entries) (hf : f ∈ FileTree.locatedIn entries)
    (hlist : f.source ∈ rules.list entries) : rules.listed? "" f = some f.source := by
  obtain ⟨g, hg, hgf⟩ := mem_list.mp hlist
  have hpath : g.path = f.path := congrArg SourceFile.path (eq_source_of_listed? hgf).symm
  rwa [List.inj_on_of_nodup_map h hg hf hpath] at hgf

/-- The listing does not depend on the order of the entries. -/
theorem list_eq_of_perm {entries : List FileTree} {files : List LocatedFile}
    (h : FileTree.Unambiguous entries) (hperm : (FileTree.locatedIn entries).Perm files)
    (rules : ScanRules) :
    rules.list entries =
      (files.filterMap (rules.listed? "")).mergeSort fun a b => a.path ≤ b.path := by
  have hsame : (rules.list entries).Perm
      ((files.filterMap (rules.listed? "")).mergeSort fun a b => a.path ≤ b.path) := by
    rw [list, filesIn_eq_filterMap]
    exact (List.mergeSort_perm _ _).trans
      ((hperm.filterMap _).trans (List.mergeSort_perm _ _).symm)
  refine List.Perm.eq_of_pairwise ?_ (List.pairwise_mergeSort path_le_trans path_le_total _)
    (List.pairwise_mergeSort path_le_trans path_le_total _) hsame
  -- two files that are each before the other have one path, hence are one file
  intro a b ha hb hab hba
  exact List.inj_on_of_nodup_map (paths_nodup h rules) ha (hsame.mem_iff.mpr hb)
    (String.le_antisymm (of_decide_eq_true hab) (of_decide_eq_true hba))

/-- One more file is inserted into the listing, and nothing else changes. -/
theorem exists_list_eq_append {rules : ScanRules} {entries entries' : List FileTree}
    {f : LocatedFile} (h : FileTree.Unambiguous entries')
    (hperm : (FileTree.locatedIn entries').Perm (f :: FileTree.locatedIn entries))
    (hlist : f.source ∈ rules.list entries') :
    ∃ before after, rules.list entries = before ++ after ∧
      rules.list entries' = before ++ f.source :: after := by
  have hf : rules.listed? "" f = some f.source :=
    listed?_of_mem_list h (hperm.mem_iff.mpr List.mem_cons_self) hlist
  obtain ⟨before, after, hlong, hshort, -⟩ := List.mergeSort_cons path_le_trans path_le_total
    f.source (rules.filesIn "" entries)
  refine ⟨before, after, hshort, ?_⟩
  rw [list_eq_of_perm h hperm rules, List.filterMap_cons_some hf, ← filesIn_eq_filterMap]
  exact hlong

end ScanRules

end UiMarkup
