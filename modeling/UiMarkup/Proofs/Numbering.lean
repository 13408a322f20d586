import Mathlib.Data.List.Nodup
import UiMarkup.Proofs.Ownership

/-!
# Numbered variables

Components are numbered in preorder, and the number is part of the name of the variable, so no two
variables share a name. The statements of a component stand together: right after them the component
is put into its container, and nothing else works on the variables of its tree.

* `names_nodup`: variables that are numbered one after the other have different names.
* `emit_split`: a contained component among the statements of its container.
* `emitsAt_of_getElem?`: each component among the statements of a forest, by its number.
* `appended_emitAll`: every variable is that of a root or put into a container, once.
* `variables_numbered_in_preorder`: the main statement.
-/

namespace UiMarkup

namespace Statement

/-- The variables that a statement works on. -/
def vars : Statement → List Var
  | comment _ | blank => []
  | declare x _ | setClass x _ | setText x _ | bindText x _ | setStyles x _ | listen x _ _ => [x]
  | append parent child => [parent, child]

/-- The variable that a statement puts into another one. -/
def appended? : Statement → Option Var
  | append _ child => some child
  | _ => none

end Statement

namespace Component

open Statement

/-- The number of components in a tree. -/
def size (c : Component) : Nat :=
  c.preorder.length

/-- The number of components in several trees. -/
def sizes (cs : List Component) : Nat :=
  (cs.flatMap preorder).length

theorem size_eq (c : Component) : c.size = 1 + sizes c.components := by
  rw [size, preorder_eq, List.length_cons, Nat.add_comm, sizes]

theorem sizes_nil : sizes [] = 0 := rfl

theorem sizes_append (cs cs' : List Component) : sizes (cs ++ cs') = sizes cs + sizes cs' := by
  simp [sizes]

theorem sizes_cons (c : Component) (cs : List Component) : sizes (c :: cs) = c.size + sizes cs := by
  simp [sizes, size]

/-! ## Names -/

theorem vars_cons (index : Nat) (c : Component) (cs : List Component) :
    vars index (c :: cs) = c.var index :: vars (index + 1) cs := rfl

theorem mem_vars {x : Var} {index : Nat} {cs : List Component} (h : x ∈ vars index cs) :
    index ≤ x.index ∧ x.Plain := by
  obtain ⟨⟨c, i⟩, hmem, rfl⟩ := List.mem_map.mp h
  exact ⟨(List.mem_zipIdx hmem).1, c.var_plain i⟩

/-- Variables that are numbered one after the other have different names. -/
theorem names_nodup (cs : List Component) (index : Nat) :
    ((vars index cs).map Var.name).Nodup := by
  induction cs generalizing index with
  | nil => exact List.nodup_nil
  | cons c cs ih =>
    rw [vars_cons, List.map_cons, List.nodup_cons]
    refine ⟨fun hmem => ?_, ih (index + 1)⟩
    obtain ⟨x, hx, hname⟩ := List.mem_map.mp hmem
    obtain ⟨hle, hplain⟩ := mem_vars hx
    have hindex : x.index = index := Var.name_inj hplain (c.var_plain index) hname
    omega

/-! ## The statements of a tree -/

/-- The own statements of a component work on its variable alone and put nothing into it. -/
theorem vars_ownStatements (registry : Registry) (c : Component) (x : Var) :
    ∀ s ∈ c.ownStatements registry x, s.appended? = none ∧ ∀ y ∈ s.vars, y = x := by
  have htext : ∀ s ∈ c.textStatements x, s.appended? = none ∧ ∀ y ∈ s.vars, y = x := by
    unfold textStatements
    split
    · split <;> simp [appended?, Statement.vars]
    · simp
  have hstyles : ∀ s ∈ (if (c.styles registry).isEmpty then [] else
      [setStyles x (c.styles registry)]), s.appended? = none ∧ ∀ y ∈ s.vars, y = x := by
    split <;> simp [appended?, Statement.vars]
  unfold ownStatements
  simp only [List.forall_mem_append, List.forall_mem_map]
  exact ⟨⟨⟨by simp [appended?, Statement.vars], htext⟩, hstyles⟩,
    by simp [appended?, Statement.vars]⟩

/-- The statements of components that are put into `x`, numbered from `index` on. -/
abbrev into (registry : Registry) (place : Place) (x : Var) (index : Nat) (cs : List Component) :
    List Statement :=
  (emitInto registry place x index cs).1.map Emitted.statement

/-- The statements of a component with the given number. -/
abbrev statements (registry : Registry) (index : Nat) (c : Component) : List Statement :=
  (emit registry index c).1.map Emitted.statement

theorem statements_eq (registry : Registry) (index : Nat) (c : Component) :
    statements registry index c =
      c.ownStatements registry (c.var index) ++
        into registry c.place (c.var index) (index + 1) c.components ++ [.blank] :=
  statements_emit registry index c

section
variable {registry : Registry} {place : Place} {x : Var}

theorem into_cons (index : Nat) (c : Component) (cs : List Component) :
    into registry place x index (c :: cs) =
      statements registry index c ++ append x (c.var index) ::
        into registry place x (index + c.size) cs := by
  simp only [into, emitInto, List.map_append, List.map_cons, next_emit, size]

theorem into_append (index : Nat) (cs cs' : List Component) :
    into registry place x index (cs ++ cs') =
      into registry place x index cs ++ into registry place x (index + sizes cs) cs' := by
  induction cs generalizing index with
  | nil => simp [into, emitInto, sizes_nil]
  | cons c cs ih =>
    rw [List.cons_append, into_cons, ih, into_cons, sizes_cons, List.append_assoc,
      List.cons_append, Nat.add_assoc]

end

mutual
/-- The statements of a component work on the variables of its tree. -/
theorem vars_emit (registry : Registry) : (c : Component) → (index : Nat) →
    ∀ s ∈ statements registry index c, ∀ y ∈ s.vars, index ≤ y.index ∧ y.index < index + c.size
  | ⟨name, arguments, components, modifiers, place⟩, index => by
    have hinto := vars_emitInto registry components place
      (var ⟨name, arguments, components, modifiers, place⟩ index) (index + 1)
    have hsize : size ⟨name, arguments, components, modifiers, place⟩ = 1 + sizes components :=
      size_eq _
    rw [statements_eq]
    simp only [List.forall_mem_append, List.forall_mem_singleton]
    refine ⟨⟨fun s hs y hy => ?_, fun s hs y hy => ?_⟩, by simp [Statement.vars]⟩
    · have := (vars_ownStatements registry _ _ s hs).2 y hy
      simp only [this, var]
      omega
    · rcases hinto s hs y hy with rfl | hbounds
      · simp only [var]
        omega
      · omega

theorem vars_emitInto (registry : Registry) : (cs : List Component) → (place : Place) →
    (x : Var) → (index : Nat) → ∀ s ∈ into registry place x index cs, ∀ y ∈ s.vars,
      y = x ∨ index ≤ y.index ∧ y.index < index + sizes cs
  | [], place, x, index => by simp [emitInto]
  | c :: cs, place, x, index => by
    have hfirst := vars_emit registry c index
    have hothers := vars_emitInto registry cs place x (index + c.size)
    have hsize := size_eq c
    rw [into_cons, sizes_cons]
    simp only [List.forall_mem_append, List.forall_mem_cons]
    refine ⟨fun s hs y hy => ?_, fun y hy => ?_, fun s hs y hy => ?_⟩
    · have := hfirst s hs y hy
      omega
    · simp only [Statement.vars, List.mem_cons, List.not_mem_nil, or_false] at hy
      rcases hy with rfl | rfl
      · exact .inl rfl
      · simp only [var]
        omega
    · rcases hothers s hs y hy with rfl | hbounds
      · exact .inl rfl
      · omega
end

/-- The next component, if there is one, is declared among the statements. -/
def DeclaresNext (next : List Component) (number : Nat) (ss : List Statement) : Prop :=
  ∀ c ∈ next.head?, declare (c.var number) (Descriptor.ofName c.name).tag ∈ ss

theorem declaresNext_into (registry : Registry) (place : Place) (x : Var) (number : Nat)
    (cs : List Component) : DeclaresNext cs number (into registry place x number cs) := by
  intro c hc
  cases cs with
  | nil => cases hc
  | cons c' cs =>
    obtain rfl := Option.some.inj hc
    obtain ⟨rest, hown, -⟩ := ownStatements_eq registry c' number
    rw [into_cons, statements_eq, hown]
    simp

/-- A contained component among the statements of its container: it is put into the container right
after its statements, and nothing else there works on the variables of its tree. -/
theorem emit_split (registry : Registry) {c d : Component} {before after : List Component}
    (hc : c.components = before ++ d :: after) (index : Nat) :
    let number := index + 1 + sizes before
    ∃ earlier later, statements registry index c = earlier ++ statements registry number d ++
        append (c.var index) (d.var number) :: later ∧
      (∀ s ∈ earlier ++ later, ∀ y ∈ s.vars, y.index < number ∨ number + d.size ≤ y.index) ∧
      DeclaresNext after (number + d.size) later := by
  intro number
  refine ⟨c.ownStatements registry (c.var index) ++
      into registry c.place (c.var index) (index + 1) before,
    into registry c.place (c.var index) (number + d.size) after ++ [.blank], ?_, ?_, ?_⟩
  · rw [statements_eq, hc, into_append, into_cons]
    simp [number]
  · have hbefore := vars_emitInto registry before c.place (c.var index) (index + 1)
    have hafter := vars_emitInto registry after c.place (c.var index) (number + d.size)
    have hindex : (c.var index).index = index := rfl
    simp only [List.forall_mem_append, List.forall_mem_singleton]
    refine ⟨⟨fun s hs y hy => ?_, fun s hs y hy => ?_⟩, fun s hs y hy => ?_,
      by simp [Statement.vars]⟩
    · rw [(vars_ownStatements registry c _ s hs).2 y hy]
      omega
    · rcases hbefore s hs y hy with rfl | hbounds <;> omega
    · rcases hafter s hs y hy with rfl | hbounds <;> omega
  · intro e he
    exact List.mem_append_left _ (declaresNext_into registry _ _ _ after e he)

/-! ## A component among the statements of a forest -/

/-- Among the statements `ss` stand those of the component with the given number, in one piece.
The statements around it work neither on the variables of components that it contains nor, but for
the one that puts it into its container, on its own. -/
def EmitsAt (registry : Registry) (ss : List Statement) (number : Nat) (c : Component) : Prop :=
  ∃ earlier later, ss = earlier ++ statements registry number c ++ later ∧
    ∀ s ∈ earlier ++ later, ∀ y ∈ s.vars, y.index ≤ number ∨ number + c.size ≤ y.index

theorem EmitsAt.within {registry : Registry} {ss earlier later : List Statement} {number : Nat}
    {c : Component} (h : EmitsAt registry ss number c)
    (hvars : ∀ s ∈ earlier ++ later, ∀ y ∈ s.vars,
      y.index ≤ number ∨ number + c.size ≤ y.index) :
    EmitsAt registry (earlier ++ ss ++ later) number c := by
  obtain ⟨earlier', later', rfl, hvars'⟩ := h
  refine ⟨earlier ++ earlier', later' ++ later, by simp, fun s hs => ?_⟩
  simp only [List.mem_append] at hs hvars hvars'
  rcases hs with (hs | hs) | hs | hs
  · exact hvars s (.inl hs)
  · exact hvars' s (.inl hs)
  · exact hvars' s (.inr hs)
  · exact hvars s (.inr hs)

/-- The member of a list that yields an entry of what all members yield. -/
theorem exists_of_getElem?_flatMap {cs : List Component} {j : Nat} {d : Component}
    (h : (cs.flatMap preorder)[j]? = some d) :
    ∃ before c after k, cs = before ++ c :: after ∧ j = sizes before + k ∧
      c.preorder[k]? = some d := by
  induction cs generalizing j with
  | nil => simp at h
  | cons c cs ih =>
    rw [List.flatMap_cons] at h
    by_cases hlt : j < c.preorder.length
    · rw [List.getElem?_append_left hlt] at h
      exact ⟨[], c, cs, j, rfl, by simp [sizes_nil], h⟩
    · rw [List.getElem?_append_right (Nat.le_of_not_lt hlt)] at h
      obtain ⟨before, c', after, k, rfl, hj, hd⟩ := ih h
      refine ⟨c :: before, c', after, k, rfl, ?_, hd⟩
      rw [sizes_cons, size]
      omega

theorem getElem?_flatMap_preorder {c d : Component} {k : Nat} (h : c.preorder[k]? = some d)
    (before after : List Component) :
    ((before ++ c :: after).flatMap preorder)[sizes before + k]? = some d := by
  have hlt : k < c.preorder.length := (List.getElem?_eq_some_iff.mp h).1
  rw [List.flatMap_append, List.flatMap_cons,
    List.getElem?_append_right (Nat.le_add_right (sizes before) k), ← sizes, Nat.add_sub_cancel_left,
    List.getElem?_append_left hlt]
  exact h

/-- In the tree of the first component the second one is the one with the given number in preorder,
counted from zero. -/
inductive InTree : Component → Nat → Component → Prop where
  | root (c : Component) : InTree c 0 c
  | inside {c d e : Component} {before after : List Component} {k : Nat}
      (hc : c.components = before ++ d :: after) (h : InTree d k e) :
      InTree c (1 + sizes before + k) e

namespace InTree

variable {c d e : Component} {j : Nat}

theorem of_getElem? (h : c.preorder[j]? = some d) : InTree c j d := by
  -- by induction on the size, since the components of a component stand in a list
  induction hn : c.size using Nat.strongRecOn generalizing c j with
  | ind n ih =>
    subst hn
    cases j with
    | zero =>
      rw [preorder_eq] at h
      obtain rfl := Option.some.inj h
      exact .root c
    | succ j =>
      rw [preorder_eq, List.getElem?_cons_succ] at h
      obtain ⟨before, e, after, k, hc, rfl, hd⟩ := exists_of_getElem?_flatMap h
      have hsize : c.size = 1 + (sizes before + (e.size + sizes after)) := by
        rw [size_eq, hc, sizes_append, sizes_cons]
      rw [Nat.add_comm, ← Nat.add_assoc]
      exact .inside hc (ih e.size (by omega) hd rfl)

theorem getElem? (h : InTree c j d) : c.preorder[j]? = some d := by
  induction h with
  | root c => rw [preorder_eq, List.getElem?_cons_zero]
  | @inside c d e before after k hc _ ih =>
    rw [preorder_eq, hc, show 1 + sizes before + k = sizes before + k + 1 by omega,
      List.getElem?_cons_succ]
    exact getElem?_flatMap_preorder ih before after

/-- A tree within a tree ends before it does. -/
theorem size_le (h : InTree c j d) : j + d.size ≤ c.size := by
  induction h with
  | root c => omega
  | @inside c d e before after k hc _ ih =>
    rw [size_eq c, hc, sizes_append, sizes_cons]
    omega

theorem child (h : InTree c j d) {before after : List Component}
    (hd : d.components = before ++ e :: after) : InTree c (j + 1 + sizes before) e := by
  induction h with
  | root c =>
    rw [Nat.zero_add]
    exact .inside hd (.root e)
  | @inside c d' d before' after' k hc _ ih =>
    rw [show 1 + sizes before' + k + 1 + sizes before =
      1 + sizes before' + (k + 1 + sizes before) by omega]
    exact .inside hc (ih hd)

theorem emitsAt (registry : Registry) (h : InTree c j d) (index : Nat) :
    EmitsAt registry (statements registry index c) (index + j) d := by
  induction h generalizing index with
  | root c => exact ⟨[], [], by simp, by simp⟩
  | @inside c d e before after k hc h ih =>
    have hle := h.size_le
    obtain ⟨earlier, later, hsplit, hvars, -⟩ := emit_split registry hc index
    rw [hsplit, ← Nat.add_assoc, ← Nat.add_assoc]
    refine (ih (index + 1 + sizes before)).within fun s hs y hy => ?_
    simp only [List.mem_append, List.mem_cons] at hs hvars
    rcases hs with hs | rfl | hs
    · have := hvars s (.inl hs) y hy
      omega
    · simp only [Statement.vars, List.mem_cons, List.not_mem_nil, or_false] at hy
      rcases hy with rfl | rfl <;> simp only [var] <;> omega
    · have := hvars s (.inr hs) y hy
      omega

end InTree

/-! ## The statements of a forest -/

/-- The statements of a row of components, numbered from `index` on. -/
abbrev allStatements (registry : Registry) (index : Nat) (cs : List Component) : List Statement :=
  (emitAll registry index cs).map Emitted.statement

section
variable (registry : Registry)

theorem allStatements_cons (index : Nat) (c : Component) (cs : List Component) :
    allStatements registry index (c :: cs) =
      statements registry index c ++ allStatements registry (index + c.size) cs := by
  simp only [allStatements, emitAll, List.map_append, next_emit, size]

theorem allStatements_append (index : Nat) (cs cs' : List Component) :
    allStatements registry index (cs ++ cs') =
      allStatements registry index cs ++ allStatements registry (index + sizes cs) cs' := by
  induction cs generalizing index with
  | nil => simp [allStatements, emitAll, sizes_nil]
  | cons c cs ih =>
    rw [List.cons_append, allStatements_cons, ih, allStatements_cons, sizes_cons, List.append_assoc,
      Nat.add_assoc]

theorem vars_emitAll (cs : List Component) (index : Nat) :
    ∀ s ∈ allStatements registry index cs, ∀ y ∈ s.vars,
      index ≤ y.index ∧ y.index < index + sizes cs := by
  induction cs generalizing index with
  | nil => simp [allStatements, emitAll]
  | cons c cs ih =>
    rw [allStatements_cons, sizes_cons]
    refine List.forall_mem_append.mpr ⟨fun s hs y hy => ?_, fun s hs y hy => ?_⟩
    · have := vars_emit registry c index s hs y hy
      omega
    · have := ih (index + c.size) s hs y hy
      omega

/-- Each component among the statements of a forest. -/
theorem emitsAt_of_getElem? {cs : List Component} {j : Nat} {d : Component}
    (h : (cs.flatMap preorder)[j]? = some d) (index : Nat) :
    EmitsAt registry (allStatements registry index cs) (index + j) d := by
  obtain ⟨before, c, after, k, rfl, rfl, hd⟩ := exists_of_getElem?_flatMap h
  have htree := InTree.of_getElem? hd
  have hle := htree.size_le
  rw [allStatements_append, allStatements_cons, ← List.append_assoc, ← Nat.add_assoc]
  refine (htree.emitsAt registry (index + sizes before)).within ?_
  refine List.forall_mem_append.mpr ⟨fun s hs y hy => ?_, fun s hs y hy => ?_⟩
  · have := vars_emitAll registry before index s hs y hy
    omega
  · have := vars_emitAll registry after _ s hs y hy
    omega

end

/-- The number of a contained component, from that of its container. -/
theorem getElem?_child {cs before after : List Component} {k : Nat} {c d : Component}
    (h : (cs.flatMap preorder)[k]? = some c) (hc : c.components = before ++ d :: after) :
    (cs.flatMap preorder)[k + 1 + sizes before]? = some d := by
  obtain ⟨before', c', after', k, rfl, rfl, hk⟩ := exists_of_getElem?_flatMap h
  have hd := ((InTree.of_getElem? hk).child hc).getElem?
  rw [Nat.add_assoc (sizes before'), Nat.add_assoc (sizes before')]
  exact getElem?_flatMap_preorder hd before' after'

/-! ## Each variable is put into a container once -/

mutual
/-- The components that a component contains are put into their containers, each once. -/
theorem appended_emit (registry : Registry) : (c : Component) → (index : Nat) →
    ((statements registry index c).filterMap appended?).Perm
      (vars (index + 1) (c.components.flatMap preorder))
  | ⟨name, arguments, components, modifiers, place⟩, index => by
    have hown : (ownStatements registry ⟨name, arguments, components, modifiers, place⟩
        (var ⟨name, arguments, components, modifiers, place⟩ index)).filterMap appended? = [] := by
      rw [List.filterMap_eq_nil_iff]
      exact fun s hs => (vars_ownStatements registry _ _ s hs).1
    have hblank : [Statement.blank].filterMap appended? = [] := rfl
    rw [statements_eq, List.filterMap_append, List.filterMap_append, hown, hblank, List.nil_append,
      List.append_nil]
    exact appended_emitInto registry components place _ (index + 1)

theorem appended_emitInto (registry : Registry) : (cs : List Component) → (place : Place) →
    (x : Var) → (index : Nat) → ((into registry place x index cs).filterMap appended?).Perm
      (vars index (cs.flatMap preorder))
  | [], place, x, index => .refl _
  | c :: cs, place, x, index => by
    have hfirst := appended_emit registry c index
    have hothers := appended_emitInto registry cs place x (index + c.size)
    rw [into_cons, List.filterMap_append, List.flatMap_cons, vars_append, preorder_eq, vars_cons,
      ← preorder_eq]
    exact (hfirst.append (hothers.cons _)).trans List.perm_middle
end

/-- The variables of the components at top level, of which the first has the number `index`. -/
def rootVars (index : Nat) : List Component → List Var
  | [] => []
  | c :: cs => c.var index :: rootVars (index + c.size) cs

/-- Each variable of a forest is that of a root or is put into a container, once. -/
theorem appended_emitAll (registry : Registry) (cs : List Component) (index : Nat) :
    (rootVars index cs ++ (allStatements registry index cs).filterMap appended?).Perm
      (vars index (cs.flatMap preorder)) := by
  induction cs generalizing index with
  | nil => exact .refl _
  | cons c cs ih =>
    rw [rootVars, allStatements_cons, List.filterMap_append, List.flatMap_cons, vars_append,
      preorder_eq, vars_cons, ← preorder_eq]
    refine .cons _ ?_
    refine (List.perm_append_comm_assoc _ _ _).trans ?_
    exact (appended_emit registry c index).append (ih (index + c.size))

/-- No two statements put the same variable into a container. -/
theorem nodup_appended (registry : Registry) (cs : List Component) (index : Nat) :
    (((allStatements registry index cs).filterMap appended?).map Var.name).Nodup := by
  have hperm := (appended_emitAll registry cs index).map Var.name
  have hnodup := hperm.nodup_iff.mpr (names_nodup (cs.flatMap preorder) index)
  rw [List.map_append] at hnodup
  exact hnodup.of_append_right

/-- The statements put the component `d`, which has the given number, into the element of `parent`:
once, and right after the statements of `d`. No other statements work on the variables of its tree,
and the next of its siblings is declared after it. -/
structure PutsInto (registry : Registry) (ss : List Statement) (parent : Var) (d : Component)
    (number : Nat) (siblings : List Component) : Prop where
  once : ((ss.filterMap appended?).map Var.name).count (d.var number).name = 1
  placed : ∃ earlier later, ss = earlier ++ statements registry number d ++
      append parent (d.var number) :: later ∧
    (∀ s ∈ earlier ++ later, ∀ y ∈ s.vars, y.index < number ∨ number + d.size ≤ y.index) ∧
    DeclaresNext siblings (number + d.size) later

/-- A contained component is put into its container. -/
theorem putsInto (registry : Registry) {cs before after : List Component} {k : Nat}
    {c d : Component} (h : (cs.flatMap preorder)[k]? = some c)
    (hc : c.components = before ++ d :: after) (index : Nat) :
    PutsInto registry (allStatements registry index cs) (c.var (index + k)) d
      (index + k + 1 + sizes before) after := by
  obtain ⟨outerEarlier, outerLater, hwhole, houter⟩ := emitsAt_of_getElem? registry h index
  obtain ⟨earlier, later, hsplit, hvars, hnext⟩ := emit_split registry hc (index + k)
  have hsize : c.size = 1 + (sizes before + (d.size + sizes after)) := by
    rw [size_eq, hc, sizes_append, sizes_cons]
  have hplaced : allStatements registry index cs =
      (outerEarlier ++ earlier) ++ statements registry (index + k + 1 + sizes before) d ++
        append (c.var (index + k)) (d.var (index + k + 1 + sizes before)) ::
          (later ++ outerLater) := by
    rw [hwhole, hsplit]
    simp
  refine ⟨?_, _, _, hplaced, fun s hs y hy => ?_, fun e he => ?_⟩
  · refine List.count_eq_one_of_mem (nodup_appended registry cs index) (List.mem_map_of_mem ?_)
    rw [List.mem_filterMap, hplaced]
    exact ⟨_, List.mem_append_right _ List.mem_cons_self, rfl⟩
  · have houtside (hmem : s ∈ outerEarlier ++ outerLater) :
        y.index < index + k + 1 + sizes before ∨
          index + k + 1 + sizes before + d.size ≤ y.index := by
      have := houter s hmem y hy
      omega
    simp only [List.mem_append] at hs hvars houtside
    rcases hs with (hs | hs) | hs | hs
    · exact houtside (.inl hs)
    · exact hvars s (.inl hs) y hy
    · exact hvars s (.inr hs) y hy
    · exact houtside (.inr hs)
  · exact List.mem_append_left _ (hnext e he)

end Component

open Component in
/-- **Variables are numbered in preorder and do not collide.** After its import lines, the generated
code consists of the lines of statements. These declare one variable for each component, in
preorder: the stem of the component followed by its number, counted from one. All these names
differ. Each contained component is put into its container by one statement, which follows the
statements of its tree and stands before the declaration of its next sibling. -/
theorem variables_numbered_in_preorder (options : BuildOptions) (registry : Registry)
    (nodes : List Component) :
    let statements := (emitAll registry 1 nodes).map Emitted.statement
    let components := nodes.flatMap preorder
    (generate options registry nodes).code =
        maskUndefined ("\n".intercalate
          (importLines.map Prod.fst ++ statements.flatMap (Statement.lines options.keyword))) ∧
      (statements.filterMap Statement.declared?).map Var.name =
        (components.zipIdx 1).map (fun (c, i) =>
          (Descriptor.ofName c.name).stem ++ toString i) ∧
      ((statements.filterMap Statement.declared?).map Var.name).Nodup ∧
      ∀ k c before d after, components[k]? = some c → c.components = before ++ d :: after →
        let i := k + 1 + sizes before
        components[i]? = some d ∧
          PutsInto registry statements (c.var (k + 1)) d (i + 1) after := by
  intro statements components
  have hdeclared : statements.filterMap Statement.declared? = vars 1 components :=
    declared_emitAll registry nodes 1
  refine ⟨?_, ?_, ?_, fun k c before d after hk hc => ⟨getElem?_child hk hc, ?_⟩⟩
  · rw [generate, fst_moduleLines]
  · rw [hdeclared, vars, List.map_map]
    rfl
  · rw [hdeclared]
    exact names_nodup components 1
  · have hputs := putsInto registry hk hc 1
    rwa [show 1 + k + 1 + sizes before = k + 1 + sizes before + 1 by omega,
      Nat.add_comm 1 k] at hputs

open Component in
/-- A stack of a text and a button: the text is put into the stack. -/
theorem variables_numbered_in_preorder_stack :
    let text : Component := ⟨"Text", [.text "a"], [], [], ⟨2, 3⟩⟩
    let button : Component := ⟨"Button", [], [], [⟨"padding", []⟩], ⟨3, 3⟩⟩
    let stack : Component := ⟨"VStack", [], [text, button], [], ⟨1, 1⟩⟩
    ([stack].flatMap preorder)[0]? = some stack ∧ stack.components = [] ++ text :: [button] ∧
      PutsInto .builtIn ((emitAll .builtIn 1 [stack]).map Emitted.statement) ⟨"container", 1⟩ text 2
        [button] := by
  intro text button stack
  have hstack : ([stack].flatMap preorder)[0]? = some stack := by
    rw [List.flatMap_singleton, preorder_eq, List.getElem?_cons_zero]
  obtain ⟨-, -, -, hputs⟩ := variables_numbered_in_preorder {} .builtIn [stack]
  exact ⟨hstack, rfl, (hputs 0 stack [] text [button] hstack rfl).2⟩

end UiMarkup
