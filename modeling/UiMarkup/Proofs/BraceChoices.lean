import Mathlib.Data.List.Basic
import UiMarkup.Glob.Braces

/-!
# What brace groups stand for

A pattern with brace groups stands for the texts that come of choosing one alternative in every
group. That is said from the outside in, over the structure of the pattern; the expansion works on
the text and from the inside out, on one group at a time. Both give the same texts, as long as the
calls that the expansion needs may nest: one for each group, and one more.

* `Settled`: a text in which no opening brace stands before a closing one.
* `firstGroup?_eq_none_iff`, `firstGroup?_append`: when a text has a group, and which is the first.
* `expandAll`: the expansion if any number of calls may nest.
* `groupCount`, `expandBraces_eq`: how many calls have to nest.
* `Braced`: patterns by their structure, with their texts and their choices.
* `Splits`, `exists_splits`: a pattern with groups, split at the first that contains no other.
* `expansion_gives_the_choices`: the main statement.
-/

namespace UiMarkup

namespace Text

/-- The text before the first separator is the first piece. -/
theorem splitOn_append_cons {sep : Char} {s : List Char} (h : sep ∉ s) (t : List Char) :
    splitOn sep (s ++ sep :: t) = s :: splitOn sep t := by
  induction s with
  | nil => simp [splitOn]
  | cons c s ih =>
    rw [List.mem_cons, not_or] at h
    simp [splitOn, ih h.2, Ne.symm h.1]

/-- A text without the separator is one piece. -/
theorem splitOn_of_not_mem {sep : Char} {s : List Char} (h : sep ∉ s) : splitOn sep s = [s] := by
  induction s with
  | nil => rfl
  | cons c s ih =>
    rw [List.mem_cons, not_or] at h
    simp [splitOn, ih h.2, Ne.symm h.1]

/-- Pieces without the separator, joined by it, are read back. -/
theorem splitOn_joinWith {sep : Char} {pieces : List (List Char)} (hne : pieces ≠ [])
    (h : ∀ piece ∈ pieces, sep ∉ piece) : splitOn sep (joinWith sep pieces) = pieces := by
  induction pieces with
  | nil => exact absurd rfl hne
  | cons piece pieces ih =>
    have hpiece := h piece List.mem_cons_self
    cases pieces with
    | nil => exact splitOn_of_not_mem hpiece
    | cons next pieces =>
      rw [joinWith, splitOn_append_cons hpiece,
        ih (List.cons_ne_nil _ _) fun p hp => h p (List.mem_cons_of_mem _ hp)]
      exact List.cons_ne_nil _ _

/-- Joined pieces hold the characters of the pieces, and separators. -/
theorem mem_joinWith {sep c : Char} {pieces : List (List Char)} (h : c ∈ joinWith sep pieces) :
    c = sep ∨ ∃ piece ∈ pieces, c ∈ piece := by
  fun_induction joinWith sep pieces <;> grind

end Text

namespace Glob

/-! ## The first group of a text -/

/-- No opening brace stands before a closing one. -/
def Settled (s : List Char) : Prop :=
  ¬ ['{', '}'].Sublist s

theorem settled_cons {c : Char} {s : List Char} :
    Settled (c :: s) ↔ Settled s ∧ (c = '{' → '}' ∉ s) := by
  unfold Settled
  rw [List.sublist_cons_iff]
  constructor
  · intro h
    refine ⟨fun hs => h (.inl hs), ?_⟩
    rintro rfl hclose
    exact h (.inr ⟨['}'], rfl, List.singleton_sublist.mpr hclose⟩)
  · rintro ⟨hs, hclose⟩ (h | ⟨rest, heq, hrest⟩)
    · exact hs h
    · obtain ⟨rfl, rfl⟩ := List.cons.inj heq
      exact hclose rfl (List.singleton_sublist.mp hrest)

/-- Past a text without closing braces, the next brace before a group is an opening one. -/
theorem dropWhile_isBrace_append {head : List Char} (h : '}' ∉ head) (s : List Char) :
    ∃ rest, (head ++ '{' :: s).dropWhile (!isBrace ·) = '{' :: rest := by
  induction head with
  | nil => exact ⟨s, rfl⟩
  | cons c head ih =>
    rw [List.mem_cons, not_or] at h
    by_cases hc : isBrace c = true
    · have hopen : c = '{' := by simpa [isBrace, Ne.symm h.1] using hc
      exact ⟨head ++ '{' :: s, by simp [hopen, isBrace]⟩
    · simpa [hc] using ih h.2

/-- The first group is the first that ends, if it contains no other. -/
theorem firstGroup?_append {head body : List Char} (hhead : '}' ∉ head)
    (hbody : ∀ c ∈ body, isBrace c = false) (tail : List Char) :
    firstGroup? (head ++ '{' :: body ++ '}' :: tail) = some (head, body, tail) := by
  induction head with
  | nil =>
    have hdrop : (body ++ '}' :: tail).dropWhile (!isBrace ·) = '}' :: tail := by
      rw [List.dropWhile_append_of_pos (by simpa using hbody)]
      rfl
    have htake : (body ++ '}' :: tail).takeWhile (!isBrace ·) = body := by
      rw [List.takeWhile_append_of_pos (by simpa using hbody)]
      simp [isBrace]
    simp [firstGroup?, hdrop, htake]
  | cons c head ih =>
    rw [List.mem_cons, not_or] at hhead
    obtain ⟨rest, hrest⟩ := dropWhile_isBrace_append hhead.2 (body ++ '}' :: tail)
    have hlater := ih hhead.2
    simp only [List.append_assoc, List.cons_append] at hlater ⊢
    simp [firstGroup?, hrest, hlater]

theorem firstGroup?_cons_eq_none {c : Char} {s : List Char} (h : firstGroup? (c :: s) = none) :
    firstGroup? s = none ∧ (c = '{' → ∀ tail, s.dropWhile (!isBrace ·) ≠ '}' :: tail) := by
  unfold firstGroup? at h
  dsimp only at h
  split at h
  · split at h
    · cases h
    · next hnone => exact ⟨Option.map_eq_none_iff.mp h, fun _ => hnone⟩
  · next hc => exact ⟨Option.map_eq_none_iff.mp h, fun h => absurd h hc⟩

/-- A text has no group if it is settled. -/
theorem firstGroup?_eq_none_iff {s : List Char} : firstGroup? s = none ↔ Settled s := by
  constructor
  · intro h
    induction s with
    | nil => simp [Settled]
    | cons c s ih =>
      obtain ⟨hs, hgroup⟩ := firstGroup?_cons_eq_none h
      refine settled_cons.mpr ⟨ih hs, ?_⟩
      rintro rfl hclose
      -- the first brace after this one does not close, so it opens a group before the closing one
      rw [← List.takeWhile_append_dropWhile (p := (!isBrace ·)) (l := s), List.mem_append] at hclose
      have hdrop : '}' ∈ s.dropWhile (!isBrace ·) := hclose.resolve_left fun hmem => by
        simpa [isBrace] using List.all_eq_true.mp List.all_takeWhile _ hmem
      cases hrest : s.dropWhile (!isBrace ·) with
      | nil => simp [hrest] at hdrop
      | cons d rest =>
        have hd : isBrace d = true := by
          have := List.head?_dropWhile_not (!isBrace ·) s
          simpa [hrest] using this
        have hne : d ≠ '}' := fun hd => hgroup rfl rest (hd ▸ hrest)
        have hopen : d = '{' := by simpa [isBrace, hne] using hd
        rw [hrest, hopen, List.mem_cons] at hdrop
        have hrest' : '}' ∈ rest := hdrop.resolve_left (by decide)
        have hsublist : ['{', '}'].Sublist (s.dropWhile (!isBrace ·)) := by
          rw [hrest, hopen]
          exact (List.singleton_sublist.mpr hrest').cons_cons '{'
        exact ih hs (hsublist.trans (List.dropWhile_sublist _))
  · intro h
    cases hgroup : firstGroup? s with
    | none => rfl
    | some parts =>
      obtain ⟨head, body, tail⟩ := parts
      obtain ⟨rfl, -⟩ := firstGroup?_eq_some hgroup
      refine absurd ?_ h
      simp only [List.append_assoc, List.cons_append]
      refine .trans (.cons_cons '{' ?_) (List.sublist_append_right head _)
      exact List.singleton_sublist.mpr (by simp)

/-! ## Expansion without a limit -/

/-- The pieces of a text hold no characters but those of the text. -/
theorem mem_of_mem_splitOn {sep c : Char} {s piece : List Char} (hp : piece ∈ Text.splitOn sep s)
    (hc : c ∈ piece) : c ∈ s := by
  fun_induction Text.splitOn sep s generalizing piece <;> simp_all <;> grind

/-- A text without braces. -/
theorem countP_isBrace_eq_zero {alt body : List Char} (hb : ∀ c ∈ body, isBrace c = false)
    (ha : alt ∈ Text.splitOn ',' body) : alt.countP isBrace = 0 := by
  rw [List.countP_eq_zero]
  intro c hc
  simp [hb c (mem_of_mem_splitOn ha hc)]

/-- The texts that a text with brace groups expands to. -/
def expandAll (pattern : List Char) : List (List Char) :=
  match _h : firstGroup? pattern with
  | none => [pattern]
  | some (head, body, tail) =>
    (Text.splitOn ',' body).attach.flatMap fun alt => expandAll (head ++ alt.val ++ tail)
termination_by pattern.countP isBrace
decreasing_by
  have hg := firstGroup?_eq_some _h
  have := countP_isBrace_eq_zero hg.2 alt.property
  rw [hg.1]
  simp [this, isBrace]
  omega

theorem expandAll_of_firstGroup? {s head body tail : List Char}
    (h : firstGroup? s = some (head, body, tail)) :
    expandAll s = (Text.splitOn ',' body).flatMap fun alt => expandAll (head ++ alt ++ tail) := by
  rw [expandAll]
  split
  · next heq => cases h.symm.trans heq
  · next heq =>
    obtain ⟨rfl, rfl, rfl⟩ := by simpa using h.symm.trans heq
    simp

theorem expandAll_of_settled {s : List Char} (h : Settled s) : expandAll s = [s] := by
  have hgroup := firstGroup?_eq_none_iff.mpr h
  rw [expandAll]
  split
  · rfl
  · next heq => cases hgroup.symm.trans heq

/-- The first group is replaced by each of its alternatives. -/
theorem expandAll_append {head : List Char} {pieces : List (List Char)} (hhead : '}' ∉ head)
    (hne : pieces ≠ []) (hpieces : ∀ piece ∈ pieces, ∀ c ∈ piece, isBrace c = false ∧ c ≠ ',')
    (tail : List Char) :
    expandAll (head ++ '{' :: Text.joinWith ',' pieces ++ '}' :: tail) =
      pieces.flatMap fun piece => expandAll (head ++ piece ++ tail) := by
  have hbody : ∀ c ∈ Text.joinWith ',' pieces, isBrace c = false := by
    intro c hc
    rcases Text.mem_joinWith hc with rfl | ⟨piece, hpiece, hc⟩
    · rfl
    · exact (hpieces piece hpiece c hc).1
  have hsplit : Text.splitOn ',' (Text.joinWith ',' pieces) = pieces :=
    Text.splitOn_joinWith hne fun piece hpiece hc => (hpieces piece hpiece ',' hc).2 rfl
  rw [expandAll_of_firstGroup? (firstGroup?_append hhead hbody tail), hsplit]

/-- Expansion ends with texts in which no group is left, and with at least one. -/
theorem expandAll_settles (s : List Char) :
    expandAll s ≠ [] ∧ ∀ t ∈ expandAll s, Settled t := by
  fun_induction expandAll s with
  | case1 s h => simpa using firstGroup?_eq_none_iff.mp h
  | case2 s head body tail h ih =>
    constructor
    · obtain ⟨piece, hpiece⟩ := List.exists_mem_of_ne_nil _ (Text.splitOn_ne_nil ',' body)
      intro hnil
      exact (ih ⟨piece, hpiece⟩).1 (List.flatMap_eq_nil_iff.mp hnil ⟨piece, hpiece⟩ (by simp))
    · intro t ht
      obtain ⟨piece, -, ht⟩ := List.mem_flatMap.mp ht
      exact (ih piece).2 t ht

/-! ## The number of calls -/

/-- The number of groups of a text behind `opened` opening braces that are not closed: its closing
braces that close one. -/
def groupCount : (opened : Nat) → List Char → Nat
  | _, [] => 0
  | opened, c :: s =>
    if c = '{' then groupCount (opened + 1) s
    else if c = '}' then
      if opened = 0 then groupCount 0 s else groupCount (opened - 1) s + 1
    else groupCount opened s

theorem groupCount_cons_of_plain {c : Char} (hc : isBrace c = false) (opened : Nat)
    (s : List Char) : groupCount opened (c :: s) = groupCount opened s := by
  rw [isBrace, Bool.or_eq_false_iff, beq_eq_false_iff_ne, beq_eq_false_iff_ne] at hc
  rw [groupCount, if_neg hc.1, if_neg hc.2]

theorem groupCount_append_of_plain {s : List Char} (hs : ∀ c ∈ s, isBrace c = false) (opened : Nat)
    (t : List Char) : groupCount opened (s ++ t) = groupCount opened t := by
  induction s with
  | nil => rfl
  | cons c s ih =>
    obtain ⟨hc, hs⟩ := List.forall_mem_cons.mp hs
    rw [List.cons_append, groupCount_cons_of_plain hc, ih hs]

@[simp] theorem groupCount_open (opened : Nat) (s : List Char) :
    groupCount opened ('{' :: s) = groupCount (opened + 1) s := rfl

@[simp] theorem groupCount_close (opened : Nat) (s : List Char) :
    groupCount (opened + 1) ('}' :: s) = groupCount opened s + 1 := by
  simp [groupCount]

/-- A group that contains no other counts once, and its alternatives do not. -/
theorem groupCount_group {body alt : List Char} (hbody : ∀ c ∈ body, isBrace c = false)
    (halt : ∀ c ∈ alt, isBrace c = false) (opened : Nat) (head tail : List Char) :
    groupCount opened (head ++ '{' :: body ++ '}' :: tail) =
      groupCount opened (head ++ alt ++ tail) + 1 := by
  induction head generalizing opened with
  | nil =>
    simp only [List.nil_append, List.cons_append, groupCount_open]
    rw [groupCount_append_of_plain hbody, groupCount_close, groupCount_append_of_plain halt]
  | cons c head ih =>
    simp only [List.cons_append, groupCount, ih]
    split_ifs <;> rfl

theorem groupCount_of_no_close {s : List Char} (h : '}' ∉ s) (opened : Nat) :
    groupCount opened s = 0 := by
  induction s generalizing opened with
  | nil => rfl
  | cons c s ih =>
    rw [List.mem_cons, not_or] at h
    rw [groupCount, if_neg (Ne.symm h.1), ih h.2, ih h.2, ite_self]

/-- A settled text has no groups. -/
theorem groupCount_of_settled {s : List Char} (h : Settled s) : groupCount 0 s = 0 := by
  induction s with
  | nil => rfl
  | cons c s ih =>
    obtain ⟨hs, hopen⟩ := settled_cons.mp h
    by_cases hc : c = '{'
    · rw [groupCount, if_pos hc, groupCount_of_no_close (hopen hc)]
    · rw [groupCount, if_neg hc, if_pos rfl, ih hs, ite_self]

theorem mapM_eq_some {α β : Type} {f : α → Option β} {g : α → β} {l : List α}
    (h : ∀ a ∈ l, f a = some (g a)) : l.mapM f = some (l.map g) := by
  induction l with
  | nil => rfl
  | cons a l ih =>
    obtain ⟨ha, hl⟩ := List.forall_mem_cons.mp h
    rw [List.mapM_cons, ha, ih hl]
    rfl

theorem mapM_eq_none {α β : Type} {f : α → Option β} {l : List α} (hne : l ≠ [])
    (h : ∀ a ∈ l, f a = none) : l.mapM f = none := by
  obtain ⟨a, l, rfl⟩ := List.exists_cons_of_ne_nil hne
  rw [List.mapM_cons, h a List.mem_cons_self]
  rfl

/-- The expansion needs one call more than there are groups. -/
theorem expandBraces_eq (calls : Nat) (s : List Char) :
    expandBraces calls s = if groupCount 0 s < calls then some (expandAll s) else none := by
  induction calls generalizing s with
  | zero => rfl
  | succ calls ih =>
    rw [expandBraces]
    cases hgroup : firstGroup? s with
    | none =>
      have hsettled := firstGroup?_eq_none_iff.mp hgroup
      rw [groupCount_of_settled hsettled, if_pos calls.succ_pos, expandAll_of_settled hsettled]
    | some parts =>
      obtain ⟨head, body, tail⟩ := parts
      obtain ⟨hs, hbody⟩ := firstGroup?_eq_some hgroup
      have hcount : ∀ alt ∈ Text.splitOn ',' body,
          groupCount 0 s = groupCount 0 (head ++ alt ++ tail) + 1 := fun alt halt => by
        have hplain : ∀ c ∈ alt, isBrace c = false := fun c hc =>
          hbody c (mem_of_mem_splitOn halt hc)
        rw [hs, groupCount_group hbody hplain]
      by_cases hcalls : groupCount 0 s < calls + 1
      · have hexpand : ∀ alt ∈ Text.splitOn ',' body,
            expandBraces calls (head ++ alt ++ tail) = some (expandAll (head ++ alt ++ tail)) :=
          fun alt halt => by
            have := hcount alt halt
            rw [ih, if_pos (by omega)]
        rw [if_pos hcalls, expandAll_of_firstGroup? hgroup]
        simp only [mapM_eq_some hexpand, Option.map_some, List.flatMap]
      · have hexpand : ∀ alt ∈ Text.splitOn ',' body,
            expandBraces calls (head ++ alt ++ tail) = none := fun alt halt => by
          have := hcount alt halt
          rw [ih, if_neg (by omega)]
        rw [if_neg hcalls]
        simp only [mapM_eq_none (Text.splitOn_ne_nil ',' body) hexpand, Option.map_none]

/-! ## Patterns by their structure -/

/-- What a pattern is made of: rows of characters and groups, in a group or outside of all, and the
alternatives of a group. -/
inductive Part where
  | row (grouped : Bool)
  | alternatives

/-- The part stands in a group. -/
def Part.grouped : Part → Bool
  | row grouped => grouped
  | alternatives => true

/-- The character stands for itself: it is no brace and, in a group, no comma. -/
def standsForItself (grouped : Bool) (c : Char) : Bool :=
  !isBrace c && !(grouped && c == ',')

/-- A part of a pattern with brace groups. A group has at least one alternative. -/
inductive Braced : Part → Type where
  | nil (grouped : Bool) : Braced (.row grouped)
  | char {grouped : Bool} (c : Char) (rest : Braced (.row grouped))
    (plain : standsForItself grouped c = true := by decide) : Braced (.row grouped)
  | group {grouped : Bool} (alternatives : Braced .alternatives) (rest : Braced (.row grouped)) :
    Braced (.row grouped)
  | last (p : Braced (.row true)) : Braced .alternatives
  | more (p : Braced (.row true)) (others : Braced .alternatives) : Braced .alternatives

namespace Braced

/-- The text of a part: a group stands in braces, with commas between its alternatives. -/
def text {part : Part} : Braced part → List Char
  | nil _ => []
  | char c rest _ => c :: rest.text
  | group alternatives rest => '{' :: alternatives.text ++ '}' :: rest.text
  | last p => p.text
  | more p others => p.text ++ ',' :: others.text

/-- The texts that come of choosing one alternative in every group; the choice in the leftmost group
varies slowest. -/
def choices {part : Part} : Braced part → List (List Char)
  | nil _ => [[]]
  | char c rest _ => rest.choices.map (c :: ·)
  | group alternatives rest =>
    alternatives.choices.flatMap fun s => rest.choices.map (s ++ ·)
  | last p => p.choices
  | more p others => p.choices ++ others.choices

/-- The number of groups, with those inside others. -/
def groups {part : Part} : Braced part → Nat
  | nil _ => 0
  | char _ rest _ => rest.groups
  | group alternatives rest => alternatives.groups + rest.groups + 1
  | last p => p.groups
  | more p others => p.groups + others.groups

/-- No group stands inside another. -/
def Flat {part : Part} : Braced part → Prop
  | nil _ => True
  | char _ rest _ => rest.Flat
  | group alternatives rest => alternatives.groups = 0 ∧ rest.Flat
  | last p => p.groups = 0
  | more p others => p.groups = 0 ∧ others.groups = 0

/-- The texts of the alternatives, or the text of a row. -/
def pieces {part : Part} : Braced part → List (List Char)
  | last p => [p.text]
  | more p others => p.text :: others.pieces
  | p => [p.text]

/-- The pattern with a text before it. -/
def prepend {grouped : Bool} (p : Braced (.row grouped)) :
    (s : List Char) → (∀ c ∈ s, standsForItself true c = true) → Braced (.row grouped)
  | [], _ => p
  | c :: s, h =>
    char c (p.prepend s fun d hd => h d (List.mem_cons_of_mem c hd)) (by
      have := h c List.mem_cons_self
      cases grouped <;> simp_all [standsForItself])

section Prepend

variable {grouped : Bool} (p : Braced (.row grouped)) (s : List Char)
  (h : ∀ c ∈ s, standsForItself true c = true)

@[simp] theorem text_prepend : (p.prepend s h).text = s ++ p.text := by
  induction s with
  | nil => rfl
  | cons c s ih => simp [prepend, text, ih]

@[simp] theorem groups_prepend : (p.prepend s h).groups = p.groups := by
  induction s with
  | nil => rfl
  | cons c s ih => simp [prepend, groups, ih]

@[simp] theorem choices_prepend : (p.prepend s h).choices = p.choices.map (s ++ ·) := by
  induction s with
  | nil => simp [prepend]
  | cons c s ih => simp [prepend, choices, ih]

@[simp] theorem flat_prepend : (p.prepend s h).Flat ↔ p.Flat := by
  induction s with
  | nil => rfl
  | cons c s ih => simp [prepend, Flat, ih]

end Prepend

/-! ## Parts without groups -/

theorem pieces_ne_nil {part : Part} (p : Braced part) : p.pieces ≠ [] := by
  cases p <;> simp [pieces]

@[simp] theorem pieces_row {grouped : Bool} (p : Braced (.row grouped)) : p.pieces = [p.text] := by
  cases p <;> rfl

theorem joinWith_pieces {part : Part} (p : Braced part) : Text.joinWith ',' p.pieces = p.text := by
  induction p with
  | more p others _ ih =>
    obtain ⟨piece, rest, hpieces⟩ := List.exists_cons_of_ne_nil others.pieces_ne_nil
    rw [hpieces] at ih
    simp [pieces, text, hpieces, Text.joinWith, ih]
  | _ => rfl

/-- Without groups, the pieces of a part are its choices, and their characters stand for
themselves. -/
theorem choices_of_groups_eq_zero {part : Part} {p : Braced part} (h : p.groups = 0) :
    p.choices = p.pieces ∧
      ∀ piece ∈ p.pieces, ∀ c ∈ piece, standsForItself part.grouped c = true := by
  induction p with
  | nil grouped => simp [choices, text]
  | char c rest plain ih =>
    obtain ⟨hchoices, hplain⟩ := ih h
    rw [pieces_row] at hchoices hplain ⊢
    simp_all [choices, text, Part.grouped]
  | group alternatives rest => simp [groups] at h
  | last p ih =>
    obtain ⟨hchoices, hplain⟩ := ih h
    rw [pieces_row] at hchoices hplain
    exact ⟨hchoices, hplain⟩
  | more p others ihp iho =>
    rw [groups, Nat.add_eq_zero_iff] at h
    obtain ⟨hchoices, hplain⟩ := ihp h.1
    obtain ⟨hchoices', hplain'⟩ := iho h.2
    rw [pieces_row] at hchoices hplain
    refine ⟨by simp [choices, pieces, hchoices, hchoices'], ?_⟩
    exact List.forall_mem_cons.mpr ⟨List.forall_mem_singleton.mp hplain, hplain'⟩

/-! ## Splitting at the first group -/

/-- The first group of `p` that contains no other stands between `head` and `tail`, and `ps` are the
patterns with one of its alternatives in its place. -/
structure Splits {part : Part} (p : Braced part) (head : List Char)
    (alternatives : List (List Char)) (tail : List Char) (ps : List (Braced part)) : Prop where
  text : p.text = head ++ '{' :: Text.joinWith ',' alternatives ++ '}' :: tail
  no_close : '}' ∉ head
  ne_nil : alternatives ≠ []
  plain : ∀ s ∈ alternatives, ∀ c ∈ s, isBrace c = false ∧ c ≠ ','
  texts : ps.map Braced.text = alternatives.map fun s => head ++ s ++ tail
  groups : ∀ q ∈ ps, q.groups < p.groups
  choices : ∀ t, t ∈ p.choices ↔ ∃ q ∈ ps, t ∈ q.choices
  ordered : p.Flat → (∀ q ∈ ps, q.Flat) ∧ p.choices = ps.flatMap Braced.choices

theorem Splits.exists_mem {part : Part} {p : Braced part} {head tail : List Char}
    {alternatives : List (List Char)} {ps : List (Braced part)}
    (h : Splits p head alternatives tail ps) : ∃ q, q ∈ ps := by
  refine List.exists_mem_of_ne_nil ps ?_
  rintro rfl
  exact h.ne_nil (List.map_eq_nil_iff.mp h.texts.symm)

/-- A part splits where a part inside it does. -/
theorem Splits.within {part part' : Part} {p : Braced part} {head tail : List Char}
    {alternatives : List (List Char)} {ps : List (Braced part)}
    (h : Splits p head alternatives tail ps) (f : Braced part → Braced part')
    (before after : List Char) (hbefore : '}' ∉ before)
    (htext : ∀ q, (f q).text = before ++ q.text ++ after)
    (hgroups : ∀ q, q.groups < p.groups → (f q).groups < (f p).groups)
    (hchoices : ∀ t, t ∈ (f p).choices ↔ ∃ q ∈ ps, t ∈ (f q).choices)
    (hordered : (f p).Flat →
      (∀ q ∈ ps, (f q).Flat) ∧ (f p).choices = ps.flatMap fun q => (f q).choices) :
    Splits (f p) (before ++ head) alternatives (tail ++ after) (ps.map f) where
  text := by simp [htext, h.text]
  no_close := by simp [hbefore, h.no_close]
  ne_nil := h.ne_nil
  plain := h.plain
  texts := by
    have := congrArg (List.map (before ++ · ++ after)) h.texts
    simpa [Function.comp_def, htext] using this
  groups := by simpa using fun q hq => hgroups q (h.groups q hq)
  choices := by simpa only [List.mem_map, exists_exists_and_eq_and] using hchoices
  ordered := by simpa [List.flatMap_map] using hordered

section

variable {head tail : List Char} {alternatives : List (List Char)}

theorem splits_char {grouped : Bool} {rest : Braced (.row grouped)}
    {ps : List (Braced (.row grouped))} (h : Splits rest head alternatives tail ps) (c : Char)
    (plain : standsForItself grouped c = true) :
    Splits (char c rest plain) (c :: head) alternatives tail (ps.map fun q => char c q plain) := by
  have hc : '}' ≠ c := by
    rintro rfl
    simp [standsForItself, isBrace] at plain
  rw [← List.append_nil tail]
  refine h.within (fun q => char c q plain) [c] [] (by simp [hc]) (fun q => by simp [text])
    (fun q hq => hq) (fun t => ?_) fun hflat => ?_
  · simp only [choices, List.mem_map, h.choices]
    grind
  · obtain ⟨hps, hchoices⟩ := h.ordered hflat
    exact ⟨hps, by simp [choices, hchoices, List.map_flatMap]⟩

theorem splits_inside {grouped : Bool} {p : Braced .alternatives} {ps : List (Braced .alternatives)}
    (h : Splits p head alternatives tail ps) (hp : p.groups ≠ 0) (rest : Braced (.row grouped)) :
    Splits (group p rest) ('{' :: head) alternatives (tail ++ '}' :: rest.text)
      (ps.map fun q => group q rest) := by
  refine h.within (fun q => group q rest) ['{'] ('}' :: rest.text) (by decide)
    (fun q => by simp [text]) (fun q hq => by simp [groups, hq]) (fun t => ?_)
    fun hflat => absurd hflat.1 hp
  simp only [choices, List.mem_flatMap, h.choices]
  grind

theorem splits_last {p : Braced (.row true)} {ps : List (Braced (.row true))}
    (h : Splits p head alternatives tail ps) (hp : p.groups ≠ 0) :
    Splits (last p) head alternatives tail (ps.map last) := by
  rw [← List.append_nil tail]
  exact h.within last [] [] List.not_mem_nil (fun q => by simp [text]) (fun q hq => hq) h.choices
    fun hflat => absurd hflat hp

theorem splits_first {p : Braced (.row true)} {ps : List (Braced (.row true))}
    (h : Splits p head alternatives tail ps) (hp : p.groups ≠ 0) (others : Braced .alternatives) :
    Splits (more p others) head alternatives (tail ++ ',' :: others.text)
      (ps.map fun q => more q others) := by
  obtain ⟨q, hq⟩ := h.exists_mem
  refine h.within (fun q => more q others) [] (',' :: others.text) List.not_mem_nil
    (fun q => by simp [text]) (fun q hq => by simp [groups, hq]) (fun t => ?_)
    fun hflat => absurd hflat.1 hp
  simp only [choices, List.mem_append, h.choices]
  grind

theorem splits_later {others : Braced .alternatives} {ps : List (Braced .alternatives)}
    (h : Splits others head alternatives tail ps) (ho : others.groups ≠ 0) {p : Braced (.row true)}
    (hp : p.groups = 0) :
    Splits (more p others) (p.text ++ ',' :: head) alternatives tail
      (ps.map fun q => more p q) := by
  obtain ⟨q, hq⟩ := h.exists_mem
  have hclose : '}' ∉ p.text ++ [','] := by
    intro hmem
    have hmem : '}' ∈ p.text := by simpa using hmem
    have := (choices_of_groups_eq_zero hp).2 p.text (by simp) '}' hmem
    simp [standsForItself, isBrace] at this
  have hwithin := h.within (fun q => more p q) (p.text ++ [',']) [] hclose
    (fun q => by simp [text]) (fun q hq => by simp [groups, hq]) (fun t => ?_)
    fun hflat => absurd hflat.2 ho
  · simpa using hwithin
  · simp only [choices, List.mem_append, h.choices]
    grind

end

/-- A group that contains no other is replaced by its alternatives. -/
theorem exists_splits_group {grouped : Bool} {alternatives : Braced .alternatives}
    (h : alternatives.groups = 0) (rest : Braced (.row grouped)) :
    ∃ ps, Splits (group alternatives rest) [] alternatives.pieces rest.text ps := by
  have hchoices : alternatives.choices = alternatives.pieces := (choices_of_groups_eq_zero h).1
  have hplain : ∀ s ∈ alternatives.pieces, ∀ c ∈ s, standsForItself true c = true :=
    (choices_of_groups_eq_zero h).2
  let ps := alternatives.pieces.attach.map fun s => rest.prepend s.1 (hplain s.1 s.2)
  have hordered : (group alternatives rest).choices = ps.flatMap choices := by
    simp [ps, choices, hchoices, List.flatMap_map]
  exact ⟨ps,
    { text := by simp [text, joinWith_pieces]
      no_close := List.not_mem_nil
      ne_nil := pieces_ne_nil _
      plain := fun s hs c hc => by simpa [standsForItself] using hplain s hs c hc
      texts := by simp [ps, Function.comp_def]
      groups := by
        intro q hq
        obtain ⟨s, -, rfl⟩ := List.mem_map.mp hq
        simp [groups, h]
      choices := fun t => by rw [hordered, List.mem_flatMap]
      ordered := by
        refine fun hflat => ⟨fun q hq => ?_, hordered⟩
        obtain ⟨s, -, rfl⟩ := List.mem_map.mp hq
        exact (flat_prepend ..).mpr hflat.2 }⟩

/-- A part with groups splits at the first that contains no other. -/
theorem exists_splits {part : Part} {p : Braced part} (h : p.groups ≠ 0) :
    ∃ head alternatives tail ps, Splits p head alternatives tail ps := by
  induction p with
  | nil grouped => exact absurd rfl h
  | char c rest plain ih =>
    obtain ⟨head, alternatives, tail, ps, hs⟩ := ih h
    exact ⟨_, _, _, _, splits_char hs c plain⟩
  | group inner rest ih =>
    by_cases hinner : inner.groups = 0
    · obtain ⟨ps, hs⟩ := exists_splits_group hinner rest
      exact ⟨_, _, _, _, hs⟩
    · obtain ⟨head, alternatives, tail, ps, hs⟩ := ih hinner
      exact ⟨_, _, _, _, splits_inside hs hinner rest⟩
  | last p ih =>
    obtain ⟨head, alternatives, tail, ps, hs⟩ := ih h
    exact ⟨_, _, _, _, splits_last hs h⟩
  | more p others ihp iho =>
    by_cases hp : p.groups = 0
    · have ho : others.groups ≠ 0 := fun ho => h (by simp [groups, hp, ho])
      obtain ⟨head, alternatives, tail, ps, hs⟩ := iho ho
      exact ⟨_, _, _, _, splits_later hs ho hp⟩
    · obtain ⟨head, alternatives, tail, ps, hs⟩ := ihp hp
      exact ⟨_, _, _, _, splits_first hs hp others⟩

/-! ## Expansion of patterns -/

/-- A pattern with groups expands to what the patterns with one group less expand to. -/
theorem Splits.expandAll_eq {grouped : Bool} {p : Braced (.row grouped)} {head tail : List Char}
    {alternatives : List (List Char)} {ps : List (Braced (.row grouped))}
    (h : Splits p head alternatives tail ps) :
    expandAll p.text = ps.flatMap fun q => expandAll q.text := by
  calc expandAll p.text
      = alternatives.flatMap fun s => expandAll (head ++ s ++ tail) := by
        rw [h.text, expandAll_append h.no_close h.ne_nil h.plain]
    _ = (alternatives.map fun s => head ++ s ++ tail).flatMap expandAll := by
        rw [List.flatMap_map]
    _ = ps.flatMap fun q => expandAll q.text := by
        rw [← h.texts, List.flatMap_map]

theorem expandAll_of_groups_eq_zero {grouped : Bool} {p : Braced (.row grouped)}
    (h : p.groups = 0) : expandAll p.text = p.choices := by
  obtain ⟨hchoices, hplain⟩ := choices_of_groups_eq_zero h
  rw [pieces_row] at hchoices hplain
  rw [hchoices]
  refine expandAll_of_settled fun hsublist => ?_
  have hopen : '{' ∈ p.text := hsublist.subset (by simp)
  have := hplain p.text (by simp) '{' hopen
  simp [standsForItself, isBrace] at this

theorem mem_expandAll_iff {grouped : Bool} (p : Braced (.row grouped)) (t : List Char) :
    t ∈ expandAll p.text ↔ t ∈ p.choices := by
  by_cases h : p.groups = 0
  · rw [expandAll_of_groups_eq_zero h]
  · obtain ⟨head, alternatives, tail, ps, hs⟩ := exists_splits h
    rw [hs.expandAll_eq, hs.choices, List.mem_flatMap]
    refine exists_congr fun q => and_congr_right fun hq => ?_
    have := hs.groups q hq
    exact mem_expandAll_iff q t
termination_by p.groups

theorem expandAll_of_flat {grouped : Bool} {p : Braced (.row grouped)} (hflat : p.Flat) :
    expandAll p.text = p.choices := by
  by_cases h : p.groups = 0
  · exact expandAll_of_groups_eq_zero h
  · obtain ⟨head, alternatives, tail, ps, hs⟩ := exists_splits h
    obtain ⟨hps, hchoices⟩ := hs.ordered hflat
    rw [hs.expandAll_eq, hchoices]
    refine List.flatMap_congr fun q hq => ?_
    have := hs.groups q hq
    exact expandAll_of_flat (hps q hq)
termination_by p.groups

/-- The groups of the text of a part are those of its structure. -/
theorem groupCount_text_append {part : Part} (p : Braced part) (opened : Nat) (s : List Char) :
    groupCount opened (p.text ++ s) = p.groups + groupCount opened s := by
  induction p generalizing opened s with
  | nil grouped => simp [text, groups]
  | char c rest plain ih =>
    have hc : isBrace c = false := by
      rw [standsForItself, Bool.and_eq_true, Bool.not_eq_true'] at plain
      exact plain.1
    rw [text, List.cons_append, groupCount_cons_of_plain hc, ih, groups]
  | group alternatives rest iha ihr =>
    rw [text, List.append_assoc, List.cons_append, List.cons_append, groupCount_open, iha,
      groupCount_close, ihr, groups]
    omega
  | last p ih => exact ih opened s
  | more p others ihp iho =>
    rw [text, List.append_assoc, ihp, List.cons_append, groupCount_cons_of_plain rfl, iho, groups,
      Nat.add_assoc]

theorem groupCount_text {part : Part} (p : Braced part) : groupCount 0 p.text = p.groups := by
  simpa [groupCount] using p.groupCount_text_append 0 []

end Braced

/-- **Expansion gives the choices, unless there are too many groups.** A text is expanded if and
only if it has fewer groups than calls may nest. It then expands to at least one text, and none of
these has a group left. The expansion of a pattern consists of the texts that come of choosing one
alternative in every group; if no group stands inside another, each choice is listed in
its place. -/
theorem expansion_gives_the_choices (calls : Nat) :
    (∀ s : List Char,
      if groupCount 0 s < calls then
        ∃ texts, expandBraces calls s = some texts ∧ texts ≠ [] ∧ ∀ t ∈ texts, Settled t
      else expandBraces calls s = none) ∧
    ∀ p : Braced (.row false),
      if p.groups < calls then
        ∃ texts, expandBraces calls p.text = some texts ∧ (∀ t, t ∈ texts ↔ t ∈ p.choices) ∧
          (p.Flat → texts = p.choices)
      else expandBraces calls p.text = none := by
  refine ⟨fun s => ?_, fun p => ?_⟩
  · rw [expandBraces_eq]
    split
    · exact ⟨_, rfl, expandAll_settles s⟩
    · rfl
  · rw [expandBraces_eq, p.groupCount_text]
    split
    · exact ⟨_, rfl, p.mem_expandAll_iff, Braced.expandAll_of_flat⟩
    · rfl

/-- Two groups side by side, and one group inside another. -/
theorem expansion_gives_the_choices_two :
    let flat : Braced (.row false) :=
      .group (.more (.char 'a' (.nil true)) (.last (.char 'b' (.nil true))))
        (.char ',' (.group (.more (.char 'x' (.nil true)) (.last (.nil true))) (.nil false)))
    let nested : Braced (.row false) :=
      .group (.more (.group (.last (.char 'a' (.nil true))) (.char 'b' (.nil true)))
        (.last (.nil true))) (.nil false)
    flat.text = "\x7ba,b\x7d,\x7bx,\x7d".toList ∧ flat.Flat ∧
      expandBraces maxCalls flat.text =
        some ["a,x".toList, "a,".toList, "b,x".toList, "b,".toList] ∧
      nested.text = "\x7b\x7ba\x7db,\x7d".toList ∧ ¬ nested.Flat ∧
      ∃ texts, expandBraces maxCalls nested.text = some texts ∧ "ab".toList ∈ texts := by
  intro flat nested
  have hflat : flat.Flat := ⟨rfl, rfl, trivial⟩
  have hnested : ¬ nested.Flat := fun h => Nat.one_ne_zero h.1
  have hpatterns := (expansion_gives_the_choices maxCalls).2
  have hflatTexts := hpatterns flat
  rw [if_pos (by decide)] at hflatTexts
  obtain ⟨texts, htexts, -, hlist⟩ := hflatTexts
  have hnestedTexts := hpatterns nested
  rw [if_pos (by decide)] at hnestedTexts
  obtain ⟨texts', htexts', hmem, -⟩ := hnestedTexts
  exact ⟨rfl, hflat, htexts.trans (congrArg some (hlist hflat)), rfl, hnested, texts', htexts',
    (hmem _).mpr (by decide)⟩

/-- A row of groups with one alternative each. -/
theorem exists_row_of_groups (count : Nat) :
    ∃ p : Braced (.row false), p.text = (List.replicate count "\x7ba\x7d".toList).flatten ∧
      p.choices = [List.replicate count 'a'] ∧ p.groups = count := by
  induction count with
  | zero => exact ⟨.nil false, rfl, rfl, rfl⟩
  | succ count ih =>
    obtain ⟨p, htext, hchoices, hgroups⟩ := ih
    refine ⟨.group (.last (.char 'a' (.nil true))) p, ?_, ?_, ?_⟩
    · simp [Braced.text, htext, List.replicate_succ]
    · simp [Braced.choices, hchoices, List.replicate_succ]
    · simp [Braced.groups, hgroups]

/-- A thousand groups are not expanded, although there is but one choice. -/
theorem thousand_groups_not_expanded :
    ∃ p : Braced (.row false), p.text = (List.replicate 1000 "\x7ba\x7d".toList).flatten ∧
      p.choices = [List.replicate 1000 'a'] ∧ expandBraces maxCalls p.text = none := by
  obtain ⟨p, htext, hchoices, hgroups⟩ := exists_row_of_groups 1000
  refine ⟨p, htext, hchoices, ?_⟩
  rw [expandBraces_eq, p.groupCount_text, hgroups, if_neg (by decide)]

end Glob

end UiMarkup
