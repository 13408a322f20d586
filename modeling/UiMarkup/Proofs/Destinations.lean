import Mathlib.Data.List.Basic
import UiMarkup.CommandLine.Run
import UiMarkup.Proofs.Mappings

/-!
# Where a file is written

A file whose directories are made if they are missing is written where its path leads, and nowhere
else. It is not written if a file stands in the place of one of the directories, or a directory in
the place of the file, or if the path or a name in it is too long.

* `FileTree.resolve`: where segments lead, whether or not anything is there.
* `FileTree.Obstructed`: what stands in the way of a file.
* `FileTree.ensure_cases`: the directories on the way are made, or else one of them cannot be.
* `prepareAnew_of_not_obstructed`, `prepareAnew_of_obstructed`: nothing else decides whether the
  file is written.
* `prepareMap_of_not_refused`, `prepareMap_of_refused`: the same for paths that may lead out of the
  tree.
-/

namespace UiMarkup

namespace FileTree

/-- Where a segment leads. -/
def stepTo (names : List String) (segment : String) : List String :=
  if segment = ".." then names.dropLast else names ++ [segment]

/-- Where segments lead, as the names from the root on. -/
def resolve (names segments : List String) : List String :=
  segments.foldl stepTo names

/-- The entry of a name. -/
def child? (entries : List FileTree) (name : String) : Option FileTree :=
  entries.find? fun e => e.name == name

/-- What the directory of a name holds; a directory that is missing holds nothing. -/
def entriesOf (entries : List FileTree) (name : String) : List FileTree :=
  match child? entries name with
  | some (.directory _ entries) => entries
  | _ => []

/-- What the directory to which names lead holds. -/
def entriesAt (root : List FileTree) (names : List String) : List FileTree :=
  names.foldl entriesOf root

/-- No directory of the name can be entered or made: the name is too long or that of a file. -/
def Barred (entries : List FileTree) (name : String) : Prop :=
  nameFits name = false ∨ ∃ content, child? entries name = some (.file name content)

/-- Segments lead through a name that is barred. -/
def BarredOnWay (root : List FileTree) (names segments : List String) : Prop :=
  ∃ before name after, segments = before ++ name :: after ∧ name ≠ ".." ∧
    Barred (entriesAt root (resolve names before)) name

/-- No file can have the name: it is too long or that of a directory. -/
def Taken (entries : List FileTree) (name : String) : Prop :=
  name = ".." ∨ nameFits name = false ∨
    ∃ held, child? entries name = some (.directory name held)

/-- No file can be written where segments lead: they are too long, one of the directories on the way
cannot be made, or the name of the file is taken. -/
def Obstructed (root : List FileTree) (segments : List String) : Prop :=
  pathFits segments = false ∨ BarredOnWay root [] segments.dropLast ∨
    ∀ name ∈ segments.getLast?, Taken (entriesAt root (resolve [] segments.dropLast)) name

section
variable {root : List FileTree} {names segments : List String} {segment name : String}

theorem resolve_cons : resolve names (segment :: segments) =
    resolve (stepTo names segment) segments := rfl

theorem resolve_concat : resolve names (segments ++ [segment]) =
    stepTo (resolve names segments) segment := by
  rw [resolve, List.foldl_append]
  rfl

theorem entriesAt_concat : entriesAt root (names ++ [name]) =
    entriesOf (entriesAt root names) name := by
  rw [entriesAt, List.foldl_append]
  rfl

/-- An entry has the name by which it was found. -/
theorem name_of_child? {entries : List FileTree} {e : FileTree} (h : child? entries name = some e) :
    e.name = name := by
  simpa using List.find?_some h

theorem not_barredOnWay_nil : ¬ BarredOnWay root names [] := by
  rintro ⟨before, name, after, h, -⟩
  simp at h

theorem barredOnWay_cons : BarredOnWay root names (segment :: segments) ↔
    (segment ≠ ".." ∧ Barred (entriesAt root names) segment) ∨
    BarredOnWay root (stepTo names segment) segments := by
  constructor
  · rintro ⟨before, name, after, h, hname, hbarred⟩
    cases before with
    | nil =>
      obtain ⟨rfl, rfl⟩ := List.cons.inj h
      exact .inl ⟨hname, hbarred⟩
    | cons s before =>
      obtain ⟨rfl, rfl⟩ := List.cons.inj h
      exact .inr ⟨before, name, after, rfl, hname, hbarred⟩
  · rintro (⟨hname, hbarred⟩ | ⟨before, name, after, rfl, hname, hbarred⟩)
    · exact ⟨[], segment, segments, rfl, hname, hbarred⟩
    · exact ⟨segment :: before, name, after, rfl, hname, hbarred⟩

/-- The directory of a path is not longer than the path. -/
theorem pathFits_dropLast (h : pathFits segments) : pathFits segments.dropLast := by
  rcases List.eq_nil_or_concat segments with rfl | ⟨init, last, rfl⟩
  · exact h
  · rw [List.concat_eq_append] at h ⊢
    rw [List.dropLast_concat]
    by_cases hinit : init = []
    · subst hinit
      rfl
    · have hne : init.map String.toList ≠ [] := by simpa using hinit
      simp only [pathFits, decide_eq_true_eq, String.toList_intercalate, List.map_append,
        List.map_singleton] at h ⊢
      rw [show "/".toList = ['/'] from rfl, SourceMap.intercalate_append_singleton hne,
        Text.byteLength_append] at h
      exact Nat.le_of_add_right_le h

end

/-! ## Trails -/

namespace Trail

/-- A trail tells what the directories that were entered hold. -/
def Holds (root : List FileTree) (trail : Trail) : Prop :=
  ∀ t : Trail, t <:+ trail → t.entries root = entriesAt root t.names

variable {root : List FileTree} {trail : Trail} {name : String} {entries : List FileTree}

@[simp] theorem names_cons : names ((name, entries) :: trail) = trail.names ++ [name] := by
  simp [names]

theorem holds_nil : Holds root [] := by
  intro t ht
  obtain rfl := List.suffix_nil.mp ht
  rfl

theorem Holds.entries_eq (h : trail.Holds root) : trail.entries root = entriesAt root trail.names :=
  h trail (List.suffix_refl _)

theorem Holds.leave {x : String × List FileTree} (h : Holds root (x :: trail)) : trail.Holds root :=
  fun t ht => h t (ht.trans (List.suffix_cons x trail))

theorem Holds.enter (h : trail.Holds root) (name : String) :
    Holds root ((name, entriesOf (trail.entries root) name) :: trail) := by
  intro t ht
  rcases List.suffix_cons_iff.mp ht with rfl | ht
  · rw [names_cons, entriesAt_concat, ← h.entries_eq]
    rfl
  · exact h t ht

end Trail

section
variable {root : List FileTree} {trail : Trail} {segments : List String} {segment : String}

theorem ensure_barred (hdots : segment ≠ "..") (h : Barred (trail.entries root) segment) :
    ∃ e, ensure root trail (segment :: segments) = .error e := by
  by_cases hfits : nameFits segment = true
  · obtain ⟨content, hfile⟩ := h.resolve_left (by simp [hfits])
    rw [child?] at hfile
    simp [ensure, hdots, hfits, hfile]
  · simp [ensure, hdots, hfits]

/-- A directory is entered, whether or not it is there. -/
theorem ensure_enter (hdots : segment ≠ "..") (h : ¬ Barred (trail.entries root) segment) :
    ensure root trail (segment :: segments) =
      ensure root ((segment, entriesOf (trail.entries root) segment) :: trail) segments := by
  rw [Barred, not_or, Bool.not_eq_false] at h
  obtain ⟨hfits, hfile⟩ := h
  cases hfind : child? (trail.entries root) segment with
  | none =>
    rw [entriesOf, hfind]
    rw [child?] at hfind
    simp [ensure, hdots, hfits, hfind]
  | some e =>
    obtain rfl := name_of_child? hfind
    cases e with
    | file name content => exact absurd ⟨content, hfind⟩ hfile
    | directory name entries =>
      rw [entriesOf, hfind]
      rw [child?] at hfind
      simp only [ensure, hdots, hfits, hfind, if_false, Bool.not_true, Bool.false_eq_true]
      rfl

/-- Directories are made along segments up to where these lead, or else one of them is barred. -/
theorem ensure_cases (h : trail.Holds root)
    (hclimbs : Path.climbs trail.length (segments.map String.toList) = false) :
    (¬ BarredOnWay root trail.names segments ∧
      ∃ t, ensure root trail segments = .ok t ∧ t.Holds root ∧
        t.names = resolve trail.names segments) ∨
    (BarredOnWay root trail.names segments ∧ ∃ e, ensure root trail segments = .error e) := by
  induction segments generalizing trail with
  | nil => exact .inl ⟨not_barredOnWay_nil, trail, rfl, h, rfl⟩
  | cons segment segments ih =>
    rw [barredOnWay_cons, resolve_cons]
    by_cases hdots : segment = ".."
    · subst hdots
      cases trail with
      | nil => simp [Path.climbs] at hclimbs
      | cons x trail =>
        obtain ⟨name, entries⟩ := x
        have hrest : Path.climbs trail.length (segments.map String.toList) = false := by
          simpa [Path.climbs] using hclimbs
        simpa [stepTo, ensure] using ih h.leave hrest
    · have hstep : stepTo trail.names segment = trail.names ++ [segment] := if_neg hdots
      have hne : segment.toList ≠ ['.', '.'] := fun heq => hdots (String.toList_inj.mp heq)
      have hrest : Path.climbs (trail.length + 1) (segments.map String.toList) = false := by
        simpa [Path.climbs, hne] using hclimbs
      rw [hstep, ← h.entries_eq]
      by_cases hbarred : Barred (trail.entries root) segment
      · exact .inr ⟨.inl ⟨hdots, hbarred⟩, ensure_barred hdots hbarred⟩
      · have hentered := ih (h.enter segment) hrest
        rw [Trail.names_cons] at hentered
        rw [ensure_enter hdots hbarred]
        simpa only [hdots, hbarred, ne_eq, not_false_eq_true, and_false, false_or] using hentered

end

end FileTree

/-- What does not lead above a directory does not do so in between. -/
theorem Path.climbs_of_prefix {depth : Nat} {segments all : List (List Char)}
    (hpre : segments <+: all) (h : Path.climbs depth all = false) :
    Path.climbs depth segments = false := by
  induction segments generalizing depth all with
  | nil => rfl
  | cons segment segments ih =>
    obtain ⟨all, rfl, hrest⟩ := List.cons_prefix_iff.mp hpre
    by_cases hdots : segment = ['.', '.']
    · cases depth with
      | zero => simp [climbs, hdots] at h
      | succ depth =>
        simp only [climbs, hdots, if_true] at h ⊢
        exact ih hrest h
    · simp only [climbs, hdots, if_false] at h ⊢
      exact ih hrest h

namespace FileWrite

open FileTree

/-- The directories on the way to a file are made, or else one of them is barred. -/
theorem makeDirectory_cases {path : String} (hleaves : Path.leaves path.toList = false)
    (root : List FileTree) (hfits : pathFits (segmentsOf path)) :
    (¬ BarredOnWay root [] (segmentsOf path).dropLast ∧
      ∃ t, makeDirectory root (segmentsOf path).dropLast = .ok t ∧ t.Holds root ∧
        t.names = resolve [] (segmentsOf path).dropLast) ∨
    (BarredOnWay root [] (segmentsOf path).dropLast ∧
      ∃ e, makeDirectory root (segmentsOf path).dropLast = .error e) := by
  have hclimbs : Path.climbs 0 ((segmentsOf path).dropLast.map String.toList) = false := by
    rw [Path.leaves, Bool.or_eq_false_iff] at hleaves
    have hsegments : (segmentsOf path).map String.toList = Path.segments path.toList := by
      simp [segmentsOf, Function.comp_def]
    rw [List.map_dropLast, hsegments]
    exact Path.climbs_of_prefix (List.dropLast_prefix _) hleaves.2
  simp only [makeDirectory, pathFits_dropLast hfits]
  obtain ⟨hway, t, hensure, ht⟩ | ⟨hway, e, hensure⟩ := ensure_cases Trail.holds_nil hclimbs
  · exact .inl ⟨hway, t, by rw [hensure]; rfl, ht⟩
  · refine .inr ⟨hway, ?_⟩
    rw [hensure]
    cases hfollow : follow root [] (segmentsOf path).dropLast with
    | ok target => exact ⟨_, rfl⟩
    | error cause => cases cause <;> exact ⟨_, rfl⟩

section
variable {root : List FileTree} {path : String} (hleaves : Path.leaves path.toList = false)
include hleaves

/-- A file is written where its path leads. -/
theorem prepareAnew_of_not_obstructed (h : ¬ Obstructed root (segmentsOf path)) (text : String) :
    prepareAnew root path text = .ok ⟨resolve [] (segmentsOf path), text⟩ := by
  rw [Obstructed, not_or, not_or, Bool.not_eq_false] at h
  obtain ⟨hfits, hway, hlast⟩ := h
  obtain ⟨-, t, hmake, ht, hnames⟩ | ⟨hway', -⟩ := makeDirectory_cases hleaves root hfits
  · simp only [not_forall, Taken, not_or, Bool.not_eq_false] at hlast
    obtain ⟨name, hname, hdots, hnameFits, hentry⟩ := hlast
    have hresolve : resolve [] (segmentsOf path) = t.names ++ [name] := by
      rw [← List.dropLast_append_getLast? name hname, resolve_concat, stepTo, if_neg hdots, hnames]
    rw [← hnames, ← ht.entries_eq, child?] at hentry
    rw [Option.mem_def] at hname
    simp only [prepareAnew, hmake, hfits, hname, hdots, hnameFits, Bool.not_true,
      Bool.false_eq_true, if_false, hresolve]
    split
    · next name' entries hfind =>
      obtain rfl : name' = name := name_of_child? hfind
      exact absurd ⟨entries, hfind⟩ hentry
    · rfl
  · exact absurd hway' hway

/-- Nothing is written if something is in the way. -/
theorem prepareAnew_of_obstructed (h : Obstructed root (segmentsOf path)) (text : String) :
    ∃ e, prepareAnew root path text = .error e := by
  cases hmake : makeDirectory root (segmentsOf path).dropLast with
  | error e =>
    simp only [prepareAnew, hmake]
    exact ⟨e, rfl⟩
  | ok trail =>
    simp only [prepareAnew, hmake]
    by_cases hfits : pathFits (segmentsOf path) = true
    · obtain ⟨hway, t, hmake', ht, hnames⟩ | ⟨-, e, hmake'⟩ :=
        makeDirectory_cases hleaves root hfits
      · obtain rfl := Except.ok.inj (hmake.symm.trans hmake')
        have hlast := (h.resolve_left (by simp [hfits])).resolve_left hway
        simp only [hfits, Bool.not_true, Bool.false_eq_true, if_false]
        cases hname : (segmentsOf path).getLast? with
        | none => exact ⟨_, rfl⟩
        | some name =>
          rw [← hnames, ← ht.entries_eq] at hlast
          simp only
          rcases hlast name hname with hdots | hlong | ⟨entries, hentry⟩
          · rw [if_pos hdots]
            exact ⟨_, rfl⟩
          · simp only [hlong, Bool.not_false, if_true]
            split <;> exact ⟨_, rfl⟩
          · rw [child?] at hentry
            rw [hentry]
            split_ifs <;> exact ⟨_, rfl⟩
      · cases hmake.symm.trans hmake'
    · simp only [hfits, Bool.not_false, if_true]
      exact ⟨_, rfl⟩

end

/-- Where a path leads, in the tree or beyond it. -/
def destination (path : String) : List String :=
  if Path.leaves path.toList then namesBeyond path else resolve [] (segmentsOf path)

end FileWrite

namespace CommandLine.Session

open FileTree

/-- No source map can be written at a path: the system refuses, or something in the tree is in the
way. -/
def RefusesMap (s : Session) (path : String) : Prop :=
  s.surroundings.refusal? path ≠ none ∨
    Path.leaves path.toList = false ∧ Obstructed s.files (segmentsOf path)

variable {s : Session} {path : String}

/-- A source map is written where its path leads. -/
theorem prepareMap_of_not_refused (h : ¬ s.RefusesMap path) (text : String) :
    s.prepareMap path text = .ok ⟨FileWrite.destination path, text⟩ := by
  rw [RefusesMap, not_or, not_not, not_and] at h
  obtain ⟨hallowed, hfree⟩ := h
  rw [prepareMap, hallowed, FileWrite.destination]
  by_cases hleaves : Path.leaves path.toList
  · simp only [if_pos hleaves]
  · simp only [if_neg hleaves]
    have hinside := eq_false_of_ne_true hleaves
    exact FileWrite.prepareAnew_of_not_obstructed hinside (hfree hinside) text

/-- Nothing is written where a source map is refused. -/
theorem prepareMap_of_refused (h : s.RefusesMap path) (text : String) :
    ∃ e, s.prepareMap path text = .error e := by
  rw [prepareMap]
  cases hrefusal : s.surroundings.refusal? path with
  | some e => exact ⟨e, rfl⟩
  | none =>
    obtain ⟨hinside, hobstructed⟩ := h.resolve_left (by simp [hrefusal])
    simp only [hinside, Bool.false_eq_true, if_false]
    exact FileWrite.prepareAnew_of_obstructed hinside hobstructed text

end CommandLine.Session

end UiMarkup
