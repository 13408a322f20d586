import Mathlib.Data.List.Forall2
import UiMarkup.Proofs.Vlq
import UiMarkup.SourceMap.Basic

/-!
# Reading a source map back

Mappings are split at the semicolons, each group is decoded, and the differences are added up from
the start of the source. This gives back the places that the mappings were made from.

* `SourceMap.traceFrom`: where the groups of generated lines lead, counted from zero.
* `splitOn_mappingsOf`: the groups of mappings.
* `traceFrom_groupsFrom`: the groups lead to the places that they were made from.
* `mappings_read_back`: both together, for any lines, and what one more line adds.
* `Place.zeroBased_ofOffset`: the place of an offset, in terms of the line ends before it.
-/

namespace UiMarkup

namespace Place

/-- The line and the column, counted from zero. -/
def zeroBased (p : Place) : Int × Int :=
  (p.line - 1, p.column - 1)

/-- The line and the column after the text `before`, counted from zero: the number of line ends in
it and the number of characters after the last of them. -/
def lineColumn (before : List Char) : Int × Int :=
  (before.count '\n', (before.reverse.takeWhile (· != '\n')).length)

/-- The place of an offset, in terms of the text before it. -/
theorem zeroBased_ofOffset (source : List Char) (offset : Nat) :
    (ofOffset source offset).zeroBased = lineColumn (source.take offset) := by
  have hfold (s : List Char) : (s.foldr (fun c p => step p c) start).zeroBased =
      lineColumn s.reverse := by
    induction s with
    | nil => simp [zeroBased, lineColumn, start]
    | cons c s ih =>
      simp only [zeroBased, lineColumn, Prod.mk.injEq, List.reverse_reverse] at ih ⊢
      simp only [List.foldr_cons, step, List.count_reverse, List.count_cons] at ih ⊢
      by_cases hc : c = '\n'
      · simp [hc, ← ih.1]
      · simp [hc, ← ih.1, ← ih.2]
  have := hfold (source.take offset).reverse
  rwa [List.foldr_reverse, List.reverse_reverse] at this

end Place

namespace SourceMap

/-- Where the groups of generated lines lead, after a group that led to `line` and `column`. An
empty group leads nowhere. Any other must hold four integers: two zeros and the differences in line
and column. -/
def traceFrom (line column : Int) : List (List Char) → Option (List (Option (Int × Int)))
  | [] => some []
  | [] :: groups => (traceFrom line column groups).map (none :: ·)
  | group :: groups =>
    match Vlq.decode (String.ofList group) with
    | .ok [0, 0, lines, columns] =>
      (traceFrom (line + lines) (column + columns) groups).map
        (some (line + lines, column + columns) :: ·)
    | _ => none

/-! ## One group -/

/-- A group holds two zeros and the differences in line and column. -/
theorem decode_group (previous current : Place) :
    Vlq.decode (String.ofList (group previous current)) =
      .ok [0, 0, current.line - previous.line, current.column - previous.column] := by
  have h : Vlq.decodeFrom 0 1 (Vlq.encode 0 ++ (Vlq.encode 0 ++
      (Vlq.encode (current.line - previous.line) ++
        (Vlq.encode (current.column - previous.column) ++ [])))) =
      .ok [0, 0, current.line - previous.line, current.column - previous.column] :=
    Vlq.decodeFrom_encode 0 (Vlq.decodeFrom_encode 0
      (Vlq.decodeFrom_encode _ (Vlq.decodeFrom_encode _ rfl)))
  rw [List.append_nil] at h
  simp only [Vlq.decode, String.toList_ofList, group, List.append_assoc, h]

theorem group_ne_nil (previous current : Place) : group previous current ≠ [] := by
  simp [group, Vlq.encode_ne_nil]

theorem semicolon_not_mem_group (previous current : Place) : ';' ∉ group previous current := by
  have hencode (n : Int) : ';' ∉ Vlq.encode n := by
    intro h
    exact absurd (Vlq.mem_alphabet_of_mem_encode h) (by decide)
  simp [group, hencode]

/-! ## All groups -/

theorem semicolon_not_mem_groupsFrom (previous : Place) (lines : List (Option Place)) :
    ∀ group ∈ groupsFrom previous lines, ';' ∉ group := by
  induction lines generalizing previous with
  | nil => simp [groupsFrom]
  | cons line lines ih =>
    cases line with
    | none => simpa [groupsFrom] using ih previous
    | some place => simpa [groupsFrom] using ⟨semicolon_not_mem_group previous place, ih place⟩

/-- Splitting mappings at the semicolons gives one group for each line. -/
theorem splitOn_mappingsOf {lines : List (Option Place)} (h : lines ≠ []) :
    (mappingsOf lines).toList.splitOn ';' = groupsFrom .start lines := by
  rw [mappingsOf, String.toList_ofList]
  apply List.splitOn_intercalate _ (semicolon_not_mem_groupsFrom _ _)
  cases lines with
  | nil => exact absurd rfl h
  | cons line lines => cases line <;> simp [groupsFrom]

/-- A group is empty where its line is not mapped, and otherwise holds two zeros and two
differences. -/
theorem forall₂_groupsFrom (previous : Place) (lines : List (Option Place)) :
    List.Forall₂ (fun group line => (group = [] ↔ line = none) ∧
        (group ≠ [] → ∃ l c, Vlq.decode (String.ofList group) = .ok [0, 0, l, c]))
      (groupsFrom previous lines) lines := by
  induction lines generalizing previous with
  | nil => exact .nil
  | cons line lines ih =>
    cases line with
    | none => exact .cons (by simp) (ih previous)
    | some place =>
      exact .cons ⟨by simp [group_ne_nil], fun _ => ⟨_, _, decode_group previous place⟩⟩ (ih place)

/-- The groups lead to the places that they were made from. -/
theorem traceFrom_groupsFrom (previous : Place) (lines : List (Option Place)) :
    traceFrom previous.zeroBased.1 previous.zeroBased.2 (groupsFrom previous lines) =
      some (lines.map (Option.map Place.zeroBased)) := by
  induction lines generalizing previous with
  | nil => rfl
  | cons line lines ih =>
    cases line with
    | none => simp [groupsFrom, traceFrom, ih]
    | some place =>
      have hline : previous.zeroBased.1 + (place.line - previous.line) = place.zeroBased.1 := by
        simp only [Place.zeroBased]
        omega
      have hcolumn :
          previous.zeroBased.2 + (place.column - previous.column) = place.zeroBased.2 := by
        simp only [Place.zeroBased]
        omega
      rw [groupsFrom, traceFrom, decode_group]
      · simp only [hline, hcolumn, ih, Option.map_some, List.map_cons]
      · exact group_ne_nil previous place

/-! ## One more line -/

/-- The place that the last mapped one of the lines leads to, or `previous` if none is mapped. -/
def lastMapped (previous : Place) (lines : List (Option Place)) : Place :=
  lines.foldl (fun place line => line.getD place) previous

/-- The groups of further lines depend on the lines before them through the last mapped place. -/
theorem groupsFrom_append (previous : Place) (lines lines' : List (Option Place)) :
    groupsFrom previous (lines ++ lines') =
      groupsFrom previous lines ++ groupsFrom (lastMapped previous lines) lines' := by
  induction lines generalizing previous with
  | nil => rfl
  | cons line lines ih =>
    cases line with
    | none => exact congrArg ([] :: ·) (ih previous)
    | some place => exact congrArg (group previous place :: ·) (ih place)

/-- A group after others stands behind a separator. -/
theorem intercalate_append_singleton {sep : Char} {groups : List (List Char)} (h : groups ≠ [])
    (group : List Char) :
    [sep].intercalate (groups ++ [group]) = [sep].intercalate groups ++ sep :: group := by
  induction groups with
  | nil => exact absurd rfl h
  | cons g groups ih =>
    cases groups with
    | nil => simp
    | cons g' groups =>
      have hrest := ih (List.cons_ne_nil g' groups)
      rw [List.cons_append] at hrest
      simp [List.intercalate_cons_cons, hrest]

/-- One more line adds a semicolon and the group of that line. -/
theorem mappingsOf_append_singleton {lines : List (Option Place)} (h : lines ≠ [])
    (line : Option Place) {group : List Char}
    (hgroup : groupsFrom (lastMapped .start lines) [line] = [group]) :
    mappingsOf (lines ++ [line]) = mappingsOf lines ++ ";" ++ String.ofList group := by
  have hne : groupsFrom .start lines ≠ [] := by
    rw [← splitOn_mappingsOf h]
    exact List.splitOn_ne_nil _ _
  apply String.toList_inj.mp
  simp only [mappingsOf, groupsFrom_append, hgroup, intercalate_append_singleton hne,
    String.toList_append, String.toList_ofList, List.append_assoc]
  rfl

/-- **Mappings are read back.** At the semicolons, the mappings of lines fall into one group for
each line, empty where the line is not mapped. Every other group holds two zeros and the differences
in line and column, and adding these up from zero leads to the places of the lines. One more line
adds a semicolon and one group at the end. -/
theorem mappings_read_back (lines : List (Option Place)) (h : lines ≠ []) :
    let groups := (mappingsOf lines).toList.splitOn ';'
    groups.length = lines.length ∧
      List.Forall₂ (fun group line => (group = [] ↔ line = none) ∧
        (group ≠ [] → ∃ l c, Vlq.decode (String.ofList group) = .ok [0, 0, l, c])) groups lines ∧
      traceFrom 0 0 groups =
        some (lines.map (Option.map fun place => (place.line - 1, place.column - 1))) ∧
      ∀ line, ∃ group : List Char, ';' ∉ group ∧ (group = [] ↔ line = none) ∧
        mappingsOf (lines ++ [line]) = mappingsOf lines ++ ";" ++ String.ofList group := by
  intro groups
  have hgroups : groups = groupsFrom .start lines := splitOn_mappingsOf h
  have hrows := forall₂_groupsFrom .start lines
  rw [hgroups]
  refine ⟨hrows.length_eq, hrows, traceFrom_groupsFrom .start lines, fun line => ?_⟩
  -- the group of the new line is that of a single line after the last mapped place
  have hlast := forall₂_groupsFrom (lastMapped .start lines) [line]
  obtain ⟨group, rest, hgroup, hrest, heq⟩ := List.forall₂_cons_right_iff.mp hlast
  obtain rfl := List.forall₂_nil_right_iff.mp hrest
  have hsemicolon := semicolon_not_mem_groupsFrom (lastMapped .start lines) [line] group
    (heq ▸ List.mem_cons_self)
  exact ⟨group, hsemicolon, hgroup.1, mappingsOf_append_singleton h line heq⟩

/-- Lines that lead nowhere, forward, to a place before the source, and nowhere again. -/
theorem mappings_read_back_backwards :
    let lines := [none, some ⟨3, 5⟩, some ⟨-7, 40⟩, none]
    lines ≠ [] ∧ traceFrom 0 0 ((mappingsOf lines).toList.splitOn ';') =
        some [none, some (2, 4), some (-8, 39), none] ∧
      ∃ group : List Char, group ≠ [] ∧
        mappingsOf (lines ++ [some ⟨1, 1⟩]) = mappingsOf lines ++ ";" ++ String.ofList group := by
  intro lines
  have hne : lines ≠ [] := List.cons_ne_nil _ _
  obtain ⟨-, -, htrace, hmore⟩ := mappings_read_back lines hne
  obtain ⟨group, -, hempty, heq⟩ := hmore (some ⟨1, 1⟩)
  exact ⟨hne, htrace, group, fun h => (nomatch hempty.mp h), heq⟩

/-- No line at all and one line that is not mapped have the same mappings. -/
example : mappingsOf [] = mappingsOf [none] := by decide

end SourceMap

end UiMarkup
