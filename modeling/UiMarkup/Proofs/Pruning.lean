import Mathlib.Data.List.Infix
import UiMarkup.Proofs.FileListing

/-!
# Which files a scan lists

A scan does not enter directories that are pruned, so it does not see what lies below them. Its
listing is described here without the walk, by what the rules say of one path after the other: of
those of the directories on the way to a file, which end with a slash, and of that of the file.

* `FileTree.WellNamedIn`: the entries of a directory have names of their own, without slashes.
* `unambiguous_of_wellNamed`: in a directory with well-named entries each file has its own path.
* `locatedIn_perm`: another order of the entries is another order of the files.
* `ScanRules.Selects`: what the rules have to say of the paths for a file to be listed.
* `admits_iff_selects`: a file that is selected is reached, and the other way round.
* `scan_lists_selected_files`: the main statement.
-/

namespace UiMarkup

namespace LocatedFile

/-- The names on the way to the file, its own at the end. -/
def names (f : LocatedFile) : List String :=
  f.directories ++ [f.name]

/-- What a walk puts in front of a name, one directory after the other, is the way joined by
slashes. -/
theorem foldl_append_eq_intercalate (directories : List String) (base name : String) :
    directories.foldl (fun base directory => base ++ directory ++ "/") base ++ name =
      base ++ "/".intercalate (directories ++ [name]) := by
  induction directories generalizing base with
  | nil => simp
  | cons directory directories ih =>
    obtain ⟨next, rest, hnext⟩ := List.exists_cons_of_ne_nil
      (show directories ++ [name] ≠ [] by simp)
    rw [List.foldl_cons, ih, List.cons_append, hnext, String.intercalate_cons_cons]
    simp only [String.append_assoc]

theorem path_eq (f : LocatedFile) : f.path = "/".intercalate f.names := by
  rw [path, pathFrom, foldl_append_eq_intercalate, String.empty_append, names]

/-- The path of a directory as a walk makes it ends with a slash. -/
theorem foldl_eq_intercalate {directories : List String} (h : directories ≠ []) :
    directories.foldl (fun base directory => base ++ directory ++ "/") "" =
      "/".intercalate directories ++ "/" := by
  obtain ⟨above, last, rfl⟩ := (List.eq_nil_or_concat directories).resolve_left h
  rw [List.concat_eq_append, List.foldl_append, List.foldl_cons, List.foldl_nil,
    foldl_append_eq_intercalate, String.empty_append]

theorem names_under (directory : String) (f : LocatedFile) :
    (f.under directory).names = directory :: f.names := rfl

end LocatedFile

namespace FileTree

/-! ## Names of entries -/

mutual
/-- The name has no slash, and the same holds of everything below. -/
def WellNamed : FileTree → Prop
  | file name _ => '/' ∉ name.toList
  | directory name entries => '/' ∉ name.toList ∧ WellNamedIn entries

/-- The entries of a directory are well-named, and no two have the same name. -/
def WellNamedIn : List FileTree → Prop
  | [] => True
  | entry :: entries =>
    entry.WellNamed ∧ (∀ other ∈ entries, other.name ≠ entry.name) ∧ WellNamedIn entries
end

mutual
/-- The way to a file starts with the name of the entry. -/
theorem head?_names_of_located : (entry : FileTree) →
    ∀ f ∈ entry.located, f.names.head? = some entry.name
  | file name content => by simp [located, LocatedFile.names, FileTree.name]
  | directory name entries => by
    simp [located, LocatedFile.names_under, FileTree.name]

theorem head?_names_of_locatedIn : (entries : List FileTree) →
    ∀ f ∈ locatedIn entries, ∃ entry ∈ entries, f.names.head? = some entry.name
  | [] => by simp [locatedIn]
  | entry :: entries => by
    rw [locatedIn]
    refine List.forall_mem_append.mpr ⟨fun f hf => ?_, fun f hf => ?_⟩
    · exact ⟨entry, List.mem_cons_self, head?_names_of_located entry f hf⟩
    · obtain ⟨other, hother, hhead⟩ := head?_names_of_locatedIn entries f hf
      exact ⟨other, List.mem_cons_of_mem entry hother, hhead⟩
end

mutual
theorem slash_not_mem_of_located : (entry : FileTree) → entry.WellNamed →
    ∀ f ∈ entry.located, ∀ name ∈ f.names, '/' ∉ name.toList
  | file name content, h => by
    rw [WellNamed] at h
    simpa [located, LocatedFile.names] using h
  | directory name entries, h => by
    rw [WellNamed] at h
    have hin := slash_not_mem_of_locatedIn entries h.2
    rw [located]
    refine List.forall_mem_map.mpr fun f hf => ?_
    rw [LocatedFile.names_under]
    exact List.forall_mem_cons.mpr ⟨h.1, hin f hf⟩

theorem slash_not_mem_of_locatedIn : (entries : List FileTree) → WellNamedIn entries →
    ∀ f ∈ locatedIn entries, ∀ name ∈ f.names, '/' ∉ name.toList
  | [], _ => by simp [locatedIn]
  | entry :: entries, h => by
    rw [WellNamedIn] at h
    rw [locatedIn]
    exact List.forall_mem_append.mpr
      ⟨slash_not_mem_of_located entry h.1, slash_not_mem_of_locatedIn entries h.2.2⟩
end

mutual
theorem nodup_names_of_located : (entry : FileTree) → entry.WellNamed →
    (entry.located.map LocatedFile.names).Nodup
  | file name content, _ => by simp [located]
  | directory name entries, h => by
    rw [WellNamed] at h
    rw [located, List.map_map]
    have hin := nodup_names_of_locatedIn entries h.2
    rw [List.Nodup, List.pairwise_map] at hin ⊢
    refine hin.imp fun hne heq => hne ?_
    exact (List.cons.inj heq).2

/-- No two files have the same way. -/
theorem nodup_names_of_locatedIn : (entries : List FileTree) → WellNamedIn entries →
    ((locatedIn entries).map LocatedFile.names).Nodup
  | [], _ => by simp [locatedIn]
  | entry :: entries, h => by
    rw [WellNamedIn] at h
    obtain ⟨hentry, hothers, hentries⟩ := h
    rw [locatedIn, List.map_append, List.nodup_append]
    refine ⟨nodup_names_of_located entry hentry, nodup_names_of_locatedIn entries hentries, ?_⟩
    -- the ways to a file of the first entry and to one of the others differ in their first name
    intro way hway way' hway' heq
    obtain ⟨f, hf, rfl⟩ := List.mem_map.mp hway
    obtain ⟨g, hg, rfl⟩ := List.mem_map.mp hway'
    obtain ⟨other, hother, hhead⟩ := head?_names_of_locatedIn entries g hg
    rw [← heq, head?_names_of_located entry f hf] at hhead
    exact hothers other hother (Option.some.inj hhead).symm
end

/-- Ways without slashes in their names can be told apart by their paths. -/
theorem intercalate_slash_inj {names names' : List String} (hne : names ≠ []) (hne' : names' ≠ [])
    (h : ∀ name ∈ names, '/' ∉ name.toList) (h' : ∀ name ∈ names', '/' ∉ name.toList)
    (heq : "/".intercalate names = "/".intercalate names') : names = names' := by
  have hread {names : List String} (hne : names ≠ []) (h : ∀ name ∈ names, '/' ∉ name.toList) :
      ("/".intercalate names).toList.splitOn '/' = names.map String.toList := by
    rw [String.toList_intercalate]
    refine List.splitOn_intercalate _ ?_ (by simpa using hne)
    exact List.forall_mem_map.mpr h
  have hlists : names.map String.toList = names'.map String.toList := by
    rw [← hread hne h, ← hread hne' h', heq]
  exact List.map_injective_iff.mpr (fun _ _ => String.toList_inj.mp) hlists

/-- Where entries are well-named, each file has its own path. -/
theorem unambiguous_of_wellNamed {entries : List FileTree} (h : WellNamedIn entries) :
    Unambiguous entries := by
  have hslash := slash_not_mem_of_locatedIn entries h
  have hnodup := nodup_names_of_locatedIn entries h
  rw [Unambiguous, List.Nodup, List.pairwise_map]
  rw [List.Nodup, List.pairwise_map] at hnodup
  refine hnodup.imp_of_mem fun {f g} hf hg hne heq => hne ?_
  rw [LocatedFile.path_eq, LocatedFile.path_eq] at heq
  exact intercalate_slash_inj (by simp [LocatedFile.names]) (by simp [LocatedFile.names])
    (hslash f hf) (hslash g hg) heq

/-! ## The order of entries -/

/-- The second directory has the entries of the first in another order, at any depth. -/
inductive Reordered : List FileTree → List FileTree → Prop where
  | nil : Reordered [] []
  | cons (entry : FileTree) {entries entries' : List FileTree} (h : Reordered entries entries') :
      Reordered (entry :: entries) (entry :: entries')
  | inside (name : String) {inner inner' : List FileTree} (h : Reordered inner inner')
      (entries : List FileTree) :
      Reordered (.directory name inner :: entries) (.directory name inner' :: entries)
  | swap (entry entry' : FileTree) (entries : List FileTree) :
      Reordered (entry :: entry' :: entries) (entry' :: entry :: entries)
  | trans {entries entries' entries'' : List FileTree} (h : Reordered entries entries')
      (h' : Reordered entries' entries'') : Reordered entries entries''

/-- Another order of the entries is another order of the files. -/
theorem locatedIn_perm {entries entries' : List FileTree} (h : Reordered entries entries') :
    (locatedIn entries).Perm (locatedIn entries') := by
  induction h with
  | nil => exact .refl _
  | cons entry _ ih =>
    rw [locatedIn, locatedIn]
    exact ih.append_left _
  | inside name _ entries ih =>
    rw [locatedIn, locatedIn, located, located]
    exact (ih.map _).append_right _
  | swap entry entry' entries =>
    simp only [locatedIn]
    exact List.perm_append_comm_assoc _ _ _
  | trans _ _ ih ih' => exact ih.trans ih'

end FileTree

namespace ScanRules

/-! ## What the rules say of paths -/

/-- The rules select the file: no directory on the way to it is named `.git` or left out, its own
path is included, and it is not left out. -/
structure Selects (rules : ScanRules) (f : LocatedFile) : Prop where
  git : ".git" ∉ f.directories
  above : ∀ directories, directories <+: f.directories → directories ≠ [] →
    rules.excludesPath ("/".intercalate directories ++ "/") = false
  included : ∀ holds ∈ rules.includes, holds ("/".intercalate f.names)
  excluded : rules.excludesPath ("/".intercalate f.names) = false

/-- What the rules say of a directory they say of the files below it, too. -/
def Hereditary (rules : ScanRules) (files : List LocatedFile) : Prop :=
  ∀ f ∈ files, ∀ directories, directories <+: f.directories → directories ≠ [] →
    rules.excludesPath ("/".intercalate directories ++ "/") →
    rules.excludesPath ("/".intercalate f.names)

instance (rules : ScanRules) (files : List LocatedFile) : Decidable (rules.Hereditary files) :=
  decidable_of_iff
    (∀ f ∈ files, ∀ directories ∈ f.directories.inits, directories ≠ [] →
      rules.excludesPath ("/".intercalate directories ++ "/") →
      rules.excludesPath ("/".intercalate f.names)) <| by
    simp only [Hereditary, List.mem_inits]

theorem takes_iff (rules : ScanRules) (path : String) :
    rules.takes path ↔
      (∀ holds ∈ rules.includes, holds path) ∧ rules.excludesPath path = false := by
  simp [takes, Option.all_eq_true]

/-- The rules let a file through that they take, if they prune none of the directories above. -/
theorem admits_iff (rules : ScanRules) (base : String) (directories : List String)
    (name : String) :
    rules.admits base directories name ↔
      ".git" ∉ directories ∧
      (∀ above, above <+: directories → above ≠ [] →
        rules.excludesPath (above.foldl (fun base directory => base ++ directory ++ "/") base) =
          false) ∧
      rules.takes (directories.foldl (fun base directory => base ++ directory ++ "/") base ++
        name) := by
  induction directories generalizing base with
  | nil => simp [admits]
  | cons directory directories ih =>
    rw [admits, Bool.and_eq_true, ih]
    simp only [prunes, Bool.not_eq_true', Bool.or_eq_false_iff, beq_eq_false_iff_ne, List.mem_cons,
      not_or, List.foldl_cons]
    constructor
    · rintro ⟨⟨hne, hexcluded⟩, hgit, habove, htakes⟩
      refine ⟨⟨Ne.symm hne, hgit⟩, fun above hprefix hnil => ?_, htakes⟩
      obtain rfl | ⟨below, rfl, hbelow⟩ := List.prefix_cons_iff.mp hprefix
      · exact absurd rfl hnil
      · rw [List.foldl_cons]
        by_cases h : below = []
        · rw [h]
          exact hexcluded
        · exact habove below hbelow h
    · rintro ⟨⟨hne, hgit⟩, habove, htakes⟩
      refine ⟨⟨Ne.symm hne, ?_⟩, hgit, fun above hprefix hnil => ?_, htakes⟩
      · exact habove [directory] (List.prefix_append [directory] directories) (by simp)
      · exact habove (directory :: above) (List.prefix_cons_iff.mpr (.inr ⟨above, rfl, hprefix⟩))
          (by simp)

/-- The walk lets those files through that the rules select. -/
theorem admits_iff_selects (rules : ScanRules) (f : LocatedFile) :
    rules.admits "" f.directories f.name ↔ rules.Selects f := by
  rw [admits_iff, takes_iff]
  change _ ∧ _ ∧ (∀ holds ∈ rules.includes, holds f.path) ∧ rules.excludesPath f.path = false ↔ _
  rw [LocatedFile.path_eq]
  constructor
  · rintro ⟨hgit, habove, hincluded, hexcluded⟩
    refine ⟨hgit, fun above hprefix hne => ?_, hincluded, hexcluded⟩
    rw [← LocatedFile.foldl_eq_intercalate hne]
    exact habove above hprefix hne
  · rintro ⟨hgit, habove, hincluded, hexcluded⟩
    refine ⟨hgit, fun above hprefix hne => ?_, hincluded, hexcluded⟩
    rw [LocatedFile.foldl_eq_intercalate hne]
    exact habove above hprefix hne

/-! ## The listing without the walk -/

theorem listed?_eq_some_iff {rules : ScanRules} {f : LocatedFile} {s : SourceFile} :
    rules.listed? "" f = some s ↔ s = ⟨"/".intercalate f.names, f.content⟩ ∧ rules.Selects f := by
  rw [listed?, Option.ite_none_right_eq_some, admits_iff_selects, Option.some_inj,
    ← LocatedFile.path_eq, and_comm, eq_comm]
  rfl

/-- Each file stands in the listing before those with greater paths. -/
theorem pairwise_lt_list {entries : List FileTree} (h : FileTree.Unambiguous entries)
    (rules : ScanRules) : (rules.list entries).Pairwise fun a b => a.path < b.path := by
  have hsorted : (rules.list entries).Pairwise fun a b => decide (a.path ≤ b.path) = true :=
    List.pairwise_mergeSort path_le_trans path_le_total _
  have hnodup := List.pairwise_map.mp (paths_nodup h rules)
  refine (hsorted.and hnodup).imp fun {a b} hab => ?_
  exact String.not_le.mp fun hle => hab.2 (String.le_antisymm (of_decide_eq_true hab.1) hle)

/-- If what is said of directories holds below them, no file is lost by not entering them. -/
theorem selects_iff_of_hereditary {rules : ScanRules} {files : List LocatedFile}
    (h : rules.Hereditary files) {f : LocatedFile} (hf : f ∈ files) :
    rules.Selects f ↔ ".git" ∉ f.directories ∧ rules.takes f.path := by
  rw [takes_iff, LocatedFile.path_eq]
  constructor
  · intro hs
    exact ⟨hs.git, hs.included, hs.excluded⟩
  · rintro ⟨hgit, hincluded, hexcluded⟩
    refine ⟨hgit, fun above hprefix hne => ?_, hincluded, hexcluded⟩
    by_contra hpruned
    have hleft := h f hf above hprefix hne (Bool.of_not_eq_false hpruned)
    rw [hexcluded] at hleft
    exact Bool.false_ne_true hleft

/-- The files outside `.git` that the rules take, sorted by their paths, whatever the rules say of
directories. -/
def listUnpruned (rules : ScanRules) (entries : List FileTree) : List SourceFile :=
  (((FileTree.locatedIn entries).filter fun f =>
    !f.directories.contains ".git" && rules.takes f.path).map LocatedFile.source).mergeSort
      fun a b => a.path ≤ b.path

theorem list_eq_listUnpruned {rules : ScanRules} {entries : List FileTree}
    (h : rules.Hereditary (FileTree.locatedIn entries)) :
    rules.list entries = rules.listUnpruned entries := by
  rw [list, listUnpruned, filesIn_eq_filterMap, ← List.filterMap_eq_map, List.filterMap_filter]
  congr 1
  refine List.filterMap_congr fun f hf => ?_
  have hiff : rules.admits "" f.directories f.name ↔
      (!f.directories.contains ".git" && rules.takes f.path) := by
    rw [admits_iff_selects, selects_iff_of_hereditary h hf]
    simp
  simp only [listed?, hiff]
  rfl

/-- **A scan lists what its rules select.** Each selected file is listed once, in the order of the
paths, and nothing else is. The order of the entries does not matter; and where the rules leave out
a directory with everything below, it does not matter that the directory is not entered. -/
theorem scan_lists_selected_files (rules : ScanRules) (entries : List FileTree)
    (h : FileTree.WellNamedIn entries) :
    (rules.list entries).Pairwise (fun a b => a.path < b.path) ∧
      (∀ s, s ∈ rules.list entries ↔
        ∃ f ∈ FileTree.locatedIn entries,
          s = ⟨"/".intercalate f.names, f.content⟩ ∧ rules.Selects f) ∧
      (∀ entries', FileTree.Reordered entries entries' →
        rules.list entries' = rules.list entries) ∧
      (rules.Hereditary (FileTree.locatedIn entries) →
        rules.list entries = rules.listUnpruned entries) := by
  have hunambiguous := FileTree.unambiguous_of_wellNamed h
  refine ⟨pairwise_lt_list hunambiguous rules, fun s => ?_, fun entries' hreordered => ?_,
    list_eq_listUnpruned⟩
  · simp only [mem_list, listed?_eq_some_iff]
  · have hperm := FileTree.locatedIn_perm hreordered
    rw [list_eq_of_perm hunambiguous hperm, list, filesIn_eq_filterMap]

/-- Sources in three directories, one of them `.git` and one of them left out with everything
below. -/
theorem scan_lists_selected_files_three :
    let rules : ScanRules := ⟨some fun path => ".ts".toList.isSuffixOf path.toList,
      some fun path => "gen/".toList.isPrefixOf path.toList⟩
    let source : FileTree := .file "a.ts" (.bytes [])
    rules.list
        [source, .directory "lib" [source, .file "b.md" (.bytes [])], .directory "gen" [source],
        .directory ".git" [source]] =
      rules.list [source, .directory ".git" [source], .directory "gen" [source],
        .directory "lib" [.file "b.md" (.bytes []), source]] ∧
    (⟨"lib/a.ts", .bytes []⟩ : SourceFile) ∈ rules.list [source, .directory ".git" [source],
      .directory "gen" [source], .directory "lib" [.file "b.md" (.bytes []), source]] ∧
    rules.list [source, .directory ".git" [source], .directory "gen" [source],
        .directory "lib" [.file "b.md" (.bytes []), source]] =
      rules.listUnpruned [source, .directory ".git" [source], .directory "gen" [source],
        .directory "lib" [.file "b.md" (.bytes []), source]] := by
  intro rules source
  have hnamed : FileTree.WellNamedIn [source, .directory ".git" [source],
      .directory "gen" [source], .directory "lib" [.file "b.md" (.bytes []), source]] := by
    simp [FileTree.WellNamedIn, FileTree.WellNamed, FileTree.name, source]
  obtain ⟨-, hmem, hreordered, hunpruned⟩ := scan_lists_selected_files rules _ hnamed
  refine ⟨hreordered _ ?_, (hmem _).mpr ⟨⟨["lib"], "a.ts", .bytes []⟩, ?_, rfl, ?_⟩, hunpruned ?_⟩
  · exact .cons source (.trans (.swap _ _ _) (.trans (.cons _ (.swap _ _ _))
      (.trans (.swap _ _ _) (.inside "lib" (.swap _ _ _) _))))
  · simp [FileTree.locatedIn, FileTree.located, LocatedFile.under, source]
  · exact (admits_iff_selects rules ⟨["lib"], "a.ts", .bytes []⟩).mp (by decide +kernel)
  · decide +kernel

end ScanRules

end UiMarkup
