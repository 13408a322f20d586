import Mathlib.Data.List.Infix
import UiMarkup.Filter

/-!
# The tails of a path

The tails of a path are the rows of steps at its end, joined by slashes. Here a path is read
without its root: both kinds of separators are cut at alike, and what is empty or a single dot is
dropped. The steps say all there is to say of a path, unless it starts with exactly two separators.
Such a path has a root that counts as a step of its own.

* `Path.steps`, `Path.withoutDrive`, `Path.joinedSuffixes`: the parts of the description.
* `segments_normalise`, `filter_parts`: the segments of a path are its steps, after its root.
* `tails_eq`: the tails of a path from its row of steps, whatever its root is.
* `tails_are_the_suffixes`: the main statement.
-/

namespace UiMarkup

namespace Path

/-- A slash or a backslash. -/
def isSeparator (c : Char) : Bool :=
  c == '/' || c == '\\'

/-- What stands between the separators of a path, without what is empty and single dots. -/
def steps (path : String) : List String :=
  ((path.toList.splitOnP isSeparator).map String.ofList).filter fun s => s ≠ "" ∧ s ≠ "."

/-- The steps without a drive letter in front of them. -/
def withoutDrive : List String → List String
  | [] => []
  | first :: rest => if first.toList.getLast? = some ':' then rest else first :: rest

/-- The path starts with exactly two separators. -/
def isNetwork (path : String) : Bool :=
  (path.toList.takeWhile isSeparator).length == 2

/-- The nonempty suffixes of a row of steps, the longest first, each joined by slashes. -/
def joinedSuffixes (row : List String) : List String :=
  (row.tails.filter (· ≠ [])).map ("/".intercalate ·)

/-- The steps of which the tails of a path consist: the root of a network path is one of them. -/
def row (path : String) : List String :=
  if isNetwork path then "//" :: steps path else withoutDrive (steps path)

/-! ## Steps -/

/-- No separator is left in what stands between them. -/
theorem not_isSeparator_of_mem_splitOnP {s piece : List Char} {c : Char}
    (hpiece : piece ∈ s.splitOnP isSeparator) (hc : c ∈ piece) : isSeparator c = false := by
  induction s generalizing piece with
  | nil => simp_all
  | cons d s ih =>
    rw [List.splitOnP_cons_eq_if_modifyHead] at hpiece
    split at hpiece
    · obtain rfl | hpiece := List.mem_cons.mp hpiece
      · simp at hc
      · exact ih hpiece hc
    · obtain ⟨first, rest, hsplit⟩ :=
        List.exists_cons_of_ne_nil (List.splitOnP_ne_nil isSeparator s)
      rw [hsplit, List.modifyHead_cons] at hpiece
      rw [hsplit] at ih
      obtain rfl | hpiece := List.mem_cons.mp hpiece
      · obtain rfl | hc := List.mem_cons.mp hc
        · simp_all
        · exact ih List.mem_cons_self hc
      · exact ih (List.mem_cons_of_mem _ hpiece) hc

theorem mem_steps {path step : String} (h : step ∈ steps path) :
    step ≠ "" ∧ step ≠ "." ∧ ∀ c ∈ step.toList, isSeparator c = false := by
  obtain ⟨hmem, hstep⟩ := List.mem_filter.mp h
  obtain ⟨piece, hpiece, rfl⟩ := List.mem_map.mp hmem
  rw [decide_eq_true_eq] at hstep
  refine ⟨hstep.1, hstep.2, fun c hc => ?_⟩
  rw [String.toList_ofList] at hc
  exact not_isSeparator_of_mem_splitOnP hpiece hc

/-- The steps of a path in a directory are those of the directory, and its own. -/
theorem steps_append (directory path : String) :
    steps (directory ++ "/" ++ path) = steps directory ++ steps path := by
  have hsplit : (directory ++ "/" ++ path).toList.splitOnP isSeparator =
      directory.toList.splitOnP isSeparator ++ path.toList.splitOnP isSeparator := by
    rw [String.toList_append, String.toList_append, List.append_assoc]
    exact List.splitOnP_append_cons _ _ (by decide)
  rw [steps, hsplit, List.map_append, List.filter_append, steps, steps]

theorem withoutDrive_suffix (row : List String) : withoutDrive row <:+ row := by
  cases row with
  | nil => exact List.suffix_rfl
  | cons first rest =>
    rw [withoutDrive]
    split
    · exact List.suffix_cons first rest
    · exact List.suffix_rfl

/-! ## The parts of a path -/

theorem splitOn_normalise (s : List Char) :
    Text.splitOn '/' (normalise s) = s.splitOnP isSeparator := by
  induction s with
  | nil => rfl
  | cons c s ih =>
    rw [normalise, List.map_cons, Text.splitOn, ← normalise, ih,
      List.splitOnP_cons_eq_if_modifyHead]
    obtain ⟨first, rest, hsplit⟩ :=
      List.exists_cons_of_ne_nil (List.splitOnP_ne_nil isSeparator s)
    rw [hsplit]
    by_cases hc : c = '\\'
    · simp [hc, isSeparator]
    · by_cases hc' : c = '/' <;> simp [hc, hc', isSeparator]

/-- The segments of a path are its steps. -/
theorem segments_normalise (path : String) :
    (segments (normalise path.toList)).map String.ofList = steps path := by
  rw [segments, splitOn_normalise, steps, List.filter_map]
  congr 1
  refine List.filter_congr fun piece _ => ?_
  have hdot : String.ofList piece = "." ↔ piece = ['.'] :=
    (String.ofList_inj : String.ofList piece = String.ofList ['.'] ↔ _)
  rw [Bool.eq_iff_iff]
  simp [hdot]

theorem takeWhile_normalise (s : List Char) :
    (normalise s).takeWhile (· == '/') =
      List.replicate (s.takeWhile isSeparator).length '/' := by
  induction s with
  | nil => rfl
  | cons c s ih =>
    rw [normalise] at ih ⊢
    by_cases hc : c = '\\'
    · simp [hc, isSeparator, List.replicate_succ, ih]
    · by_cases hc' : c = '/' <;> simp [hc, hc', isSeparator, List.replicate_succ, ih]

/-- Of the roots of a path, only that of a network path counts. -/
theorem filter_parts (path : String) :
    ((parts (normalise path.toList)).filter (· != ['/'])).map String.ofList =
      if isNetwork path then "//" :: steps path else steps path := by
  have hsegments : (segments (normalise path.toList)).filter (· != ['/']) =
      segments (normalise path.toList) := by
    refine List.filter_eq_self.mpr fun piece hpiece => ?_
    rw [segments, splitOn_normalise] at hpiece
    refine bne_iff_ne.mpr fun heq => ?_
    have hslash : '/' ∈ piece := by simp [heq]
    have := not_isSeparator_of_mem_splitOnP (List.mem_of_mem_filter hpiece) hslash
    simp [isSeparator] at this
  rw [parts, root, takeWhile_normalise, isNetwork]
  match (path.toList.takeWhile isSeparator).length with
  | 0 => simp [hsegments, segments_normalise]
  | 1 => simp [hsegments, segments_normalise]
  | 2 => simp [List.replicate_succ, hsegments, segments_normalise]
  | n + 3 => simp [List.replicate_succ, hsegments, segments_normalise]

/-! ## Joined suffixes -/

theorem joinedSuffixes_cons (step : String) (row : List String) :
    joinedSuffixes (step :: row) = "/".intercalate (step :: row) :: joinedSuffixes row := by
  simp [joinedSuffixes]

theorem mem_joinedSuffixes {tail : String} {row : List String} :
    tail ∈ joinedSuffixes row ↔
      ∃ suffix, suffix <:+ row ∧ suffix ≠ [] ∧ "/".intercalate suffix = tail := by
  simp [joinedSuffixes, and_assoc]

theorem length_joinedSuffixes (row : List String) : (joinedSuffixes row).length = row.length := by
  induction row with
  | nil => rfl
  | cons step row ih => rw [joinedSuffixes_cons, List.length_cons, List.length_cons, ih]

/-- What ends another row has no other tails. -/
theorem joinedSuffixes_subset {row row' : List String} (h : row <:+ row') :
    joinedSuffixes row ⊆ joinedSuffixes row' := by
  intro tail htail
  obtain ⟨suffix, hsuffix, hne⟩ := mem_joinedSuffixes.mp htail
  exact mem_joinedSuffixes.mpr ⟨suffix, hsuffix.trans h, hne⟩

theorem ofList_joinWith (pieces : List (List Char)) :
    String.ofList (Text.joinWith '/' pieces) = "/".intercalate (pieces.map String.ofList) := by
  induction pieces with
  | nil => rfl
  | cons piece pieces ih =>
    cases pieces with
    | nil => simp [Text.joinWith]
    | cons next pieces =>
      rw [List.map_cons] at ih
      rw [Text.joinWith, List.map_cons, List.map_cons, String.intercalate_cons_cons, ← ih,
        ← String.toList_inj]
      · simp
      · exact List.cons_ne_nil _ _

theorem nonemptyTails_eq (pieces : List (List Char)) :
    tails.nonemptyTails pieces = joinedSuffixes (pieces.map String.ofList) := by
  induction pieces with
  | nil => rfl
  | cons piece pieces ih =>
    rw [tails.nonemptyTails, ofList_joinWith, ih, List.map_cons, joinedSuffixes_cons]

/-- The tails of a path are the joined suffixes of its row of steps. -/
theorem tails_eq (path : String) : tails path = joinedSuffixes (row path) := by
  have hparts := filter_parts path
  rw [tails, nonemptyTails_eq]
  congr 1
  generalize (parts (normalise path.toList)).filter (· != ['/']) = pieces at hparts ⊢
  rw [row]
  by_cases hnetwork : isNetwork path
  · rw [if_pos hnetwork] at hparts ⊢
    obtain ⟨first, rest, rfl, hfirst, -⟩ := List.map_eq_cons_iff.mp hparts
    have hlast : first.getLast? ≠ some ':' := by
      rw [← String.toList_ofList (l := first), hfirst]
      decide
    rw [← hparts]
    simp [hlast]
  · rw [if_neg hnetwork] at hparts ⊢
    rw [← hparts]
    cases pieces with
    | nil => rfl
    | cons first rest =>
      simp only [List.map_cons, withoutDrive, String.toList_ofList]
      split <;> rfl

/-! ## Empty segments -/

/-- A text without an empty piece between slashes does not start with a slash. -/
theorem head?_ne_of_nil_not_mem_splitOn {s : List Char} (h : [] ∉ s.splitOn '/') :
    s.head? ≠ some '/' := by
  intro hhead
  obtain ⟨rest, rfl⟩ := List.head?_eq_some_iff.mp hhead
  rw [List.splitOn_eq_splitOnP, List.splitOnP_cons_eq_if_modifyHead] at h
  simp at h

/-- Steps that are joined by slashes are the pieces between the slashes. -/
theorem splitOn_intercalate_steps {path : String} {row : List String} (hne : row ≠ [])
    (h : row ⊆ steps path) : ("/".intercalate row).toList.splitOn '/' = row.map String.toList := by
  rw [String.toList_intercalate]
  refine List.splitOn_intercalate _ ?_ (by simpa using hne)
  refine List.forall_mem_map.mpr fun step hstep hslash => ?_
  exact absurd ((mem_steps (h hstep)).2.2 _ hslash) (by decide)

/-- The longest tail of a network path starts with a slash. -/
theorem exists_tail_of_isNetwork {path : String} (h : isNetwork path) :
    ∃ tail ∈ tails path, tail.toList.head? = some '/' := by
  rw [tails_eq, row, if_pos h, joinedSuffixes_cons]
  refine ⟨_, List.mem_cons_self, ?_⟩
  cases steps path with
  | nil => rfl
  | cons step steps => simp [String.intercalate_cons_cons]

/-- **The tails of a path are its joined suffixes.** They are the nonempty suffixes of its steps,
the longest first, without a drive letter; then none of them starts with a slash or has an empty
segment. The paths that start with exactly two separators are the only ones of which this does not
hold: their root counts as a step. -/
theorem tails_are_the_suffixes (path : String) :
    tails path = joinedSuffixes (row path) ∧
      (tails path = joinedSuffixes (withoutDrive (steps path)) ↔ ¬ isNetwork path) ∧
      ((∀ tail ∈ tails path, tail.toList.head? ≠ some '/' ∧ [] ∉ tail.toList.splitOn '/') ↔
        ¬ isNetwork path) := by
  refine ⟨tails_eq path, ⟨fun heq hnetwork => ?_, fun h => ?_⟩,
    ⟨fun htails hnetwork => ?_, fun h => ?_⟩⟩
  · have hlength := congrArg List.length heq
    have hshort := (withoutDrive_suffix (steps path)).length_le
    rw [tails_eq, row, if_pos hnetwork, length_joinedSuffixes, length_joinedSuffixes,
      List.length_cons] at hlength
    omega
  · rw [tails_eq, row, if_neg h]
  · obtain ⟨tail, htail, hhead⟩ := exists_tail_of_isNetwork hnetwork
    exact (htails tail htail).1 hhead
  · intro tail htail
    rw [tails_eq, row, if_neg h] at htail
    obtain ⟨suffix, hsuffix, hne, rfl⟩ := mem_joinedSuffixes.mp htail
    have hsteps : suffix ⊆ steps path := (hsuffix.trans (withoutDrive_suffix _)).subset
    have hnil : [] ∉ ("/".intercalate suffix).toList.splitOn '/' := by
      rw [splitOn_intercalate_steps hne hsteps, List.mem_map]
      rintro ⟨step, hstep, hempty⟩
      exact (mem_steps (hsteps hstep)).1 (String.toList_eq_nil_iff.mp hempty)
    exact ⟨head?_ne_of_nil_not_mem_splitOn hnil, hnil⟩

/-- The root of a network path stands in its longest tail, with a slash after it. -/
theorem tails_of_network_share :
    tails "//server/share/a.ts" =
        ["///server/share/a.ts", "server/share/a.ts", "share/a.ts", "a.ts"] ∧
      tails "//server/share/a.ts" ≠
        joinedSuffixes (withoutDrive (steps "//server/share/a.ts")) := by
  decide +kernel

example : tails "C:\\proj\\.\\src//App.tsx" = ["proj/src/App.tsx", "src/App.tsx", "App.tsx"] := by
  decide +kernel

end Path

end UiMarkup
