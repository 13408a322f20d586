import UiMarkup.Proofs.Generation

/-!
# Which component a statement belongs to

A statement belongs to the component whose variable it works on; a comment belongs to the component
that is declared next. Variables are numbered in preorder, so the number of a component tells which
one it is. This is read off the statements alone, without the places that they carry.

* `declared_emit`: the variables of a component and of those that it contains, in preorder.
* `origins_emit`: a statement carries the place of the component that it belongs to.
-/

namespace UiMarkup

namespace Statement

/-- The variable that a statement declares. -/
def declared? : Statement → Option Var
  | declare x _ => some x
  | _ => none

/-- The number of the component that a statement belongs to, where `next` is the number of the
component that is declared next. An empty line belongs to none. -/
def owner? (next : Nat) : Statement → Option Nat
  | comment _ => some next
  | declare x _ | setClass x _ | setText x _ | bindText x _ | setStyles x _ | listen x _ _
  | append x _ => some x.index
  | blank => none

/-- The owners of a row of statements, in which the variable that is declared first has the number
`next`. -/
def owners (next : Nat) : List Statement → List (Option Nat)
  | [] => []
  | s :: ss => s.owner? next :: owners (next + s.declared?.toList.length) ss

theorem owners_append (next : Nat) (ss ss' : List Statement) :
    owners next (ss ++ ss') =
      owners next ss ++ owners (next + (ss.filterMap declared?).length) ss' := by
  induction ss generalizing next with
  | nil => simp [owners]
  | cons s ss ih =>
    rw [List.cons_append, owners, owners, ih]
    cases h : s.declared? <;> simp [h, Nat.add_comm, Nat.add_left_comm]

/-- The statement declares nothing and belongs to the component with the number `k`. -/
def Concerns (k : Nat) (s : Statement) : Prop :=
  s.declared? = none ∧ ∀ next, s.owner? next = some k

theorem owners_of_concerns {k : Nat} {ss : List Statement} (h : ∀ s ∈ ss, Concerns k s)
    (next : Nat) : owners next ss = ss.map fun _ => some k := by
  induction ss generalizing next with
  | nil => rfl
  | cons s ss ih =>
    obtain ⟨⟨hdeclared, howner⟩, hss⟩ := List.forall_mem_cons.mp h
    rw [owners, howner, hdeclared, ih hss, List.map_cons]

end Statement

namespace Component

open Statement

/-! ## The statements of one component -/

/-- A component is announced and declared before anything else is done with it. -/
theorem ownStatements_eq (registry : Registry) (c : Component) (index : Nat) :
    ∃ rest, c.ownStatements registry (c.var index) =
        .comment c.name :: .declare (c.var index) (Descriptor.ofName c.name).tag :: rest ∧
      ∀ s ∈ rest, Concerns index s := by
  have htext : ∀ s ∈ c.textStatements (c.var index), Concerns index s := by
    unfold textStatements
    split
    · split <;> simp [Concerns, declared?, owner?, var]
    · simp
  have hstyles : ∀ s ∈ (if (c.styles registry).isEmpty then []
      else [setStyles (c.var index) (c.styles registry)]), Concerns index s := by
    split <;> simp [Concerns, declared?, owner?, var]
  refine ⟨[setClass (c.var index) (Descriptor.ofName c.name).classes] ++
    c.textStatements (c.var index) ++ _ ++ _, rfl, ?_⟩
  simp only [List.forall_mem_append, List.forall_mem_singleton, List.forall_mem_map]
  exact ⟨⟨⟨⟨rfl, fun _ => rfl⟩, htext⟩, hstyles⟩, fun _ _ => ⟨rfl, fun _ => rfl⟩⟩

theorem ne_blank_of_mem_ownStatements {registry : Registry} {c : Component} {index : Nat}
    {s : Statement} (h : s ∈ c.ownStatements registry (c.var index)) : s ≠ .blank := by
  obtain ⟨rest, heq, hrest⟩ := ownStatements_eq registry c index
  rw [heq] at h
  rintro rfl
  have hconcerns := hrest .blank (by simpa using h)
  simpa [owner?] using hconcerns.2 0

theorem declared_ownStatements (registry : Registry) (c : Component) (index : Nat) :
    (c.ownStatements registry (c.var index)).filterMap declared? = [c.var index] := by
  obtain ⟨rest, heq, hrest⟩ := ownStatements_eq registry c index
  have : rest.filterMap declared? = [] := by
    rw [List.filterMap_eq_nil_iff]
    exact fun s hs => (hrest s hs).1
  simp [heq, List.filterMap_cons, declared?, this]

theorem owners_ownStatements (registry : Registry) (c : Component) (index : Nat) :
    owners index (c.ownStatements registry (c.var index)) =
      (c.ownStatements registry (c.var index)).map fun _ => some index := by
  obtain ⟨rest, heq, hrest⟩ := ownStatements_eq registry c index
  rw [heq, owners, owners, owners_of_concerns hrest]
  rfl

/-! ## The statements of a tree -/

theorem emit_fst (registry : Registry) (index : Nat) (c : Component) :
    (emit registry index c).1 =
      (c.ownStatements registry (c.var index)).map (fun s => ⟨s, some c.place⟩) ++
        (emitInto registry c.place (c.var index) (index + 1) c.components).1 ++
        [⟨.blank, none⟩] := by
  cases c
  simp [emit]

theorem emit_snd (registry : Registry) (index : Nat) (c : Component) :
    (emit registry index c).2 =
      (emitInto registry c.place (c.var index) (index + 1) c.components).2 := by
  cases c
  simp [emit]

mutual
/-- The numbers used up by a component are as many as the components in it. -/
theorem next_emit (registry : Registry) : (c : Component) → (index : Nat) →
    (emit registry index c).2 = index + c.preorder.length
  | ⟨name, arguments, components, modifiers, place⟩, index => by
    rw [emit_snd, next_emitInto registry components, preorder_eq, List.length_cons,
      Nat.add_assoc, Nat.add_comm 1]

theorem next_emitInto (registry : Registry) : (cs : List Component) → (place : Place) →
    (x : Var) → (index : Nat) →
    (emitInto registry place x index cs).2 = index + (cs.flatMap preorder).length
  | [], place, x, index => rfl
  | c :: cs, place, x, index => by
    simp only [emitInto, List.flatMap_cons, List.length_append]
    rw [next_emitInto registry cs, next_emit registry c, Nat.add_assoc]
end

/-- The variables of components that are numbered from `index` on. -/
def vars (index : Nat) (cs : List Component) : List Var :=
  (cs.zipIdx index).map fun (c, i) => c.var i

theorem vars_append (index : Nat) (cs cs' : List Component) :
    vars index (cs ++ cs') = vars index cs ++ vars (index + cs.length) cs' := by
  simp [vars, List.zipIdx_append]

mutual
/-- A component and those that it contains are declared in preorder. -/
theorem declared_emit (registry : Registry) : (c : Component) → (index : Nat) →
    ((emit registry index c).1.map Emitted.statement).filterMap declared? = vars index c.preorder
  | ⟨name, arguments, components, modifiers, place⟩, index => by
    rw [statements_emit, List.filterMap_append, List.filterMap_append, declared_ownStatements,
      declared_emitInto registry components, preorder_eq]
    simp [vars, declared?]

theorem declared_emitInto (registry : Registry) : (cs : List Component) → (place : Place) →
    (x : Var) → (index : Nat) →
    ((emitInto registry place x index cs).1.map Emitted.statement).filterMap declared? =
      vars index (cs.flatMap preorder)
  | [], place, x, index => rfl
  | c :: cs, place, x, index => by
    simp only [emitInto, List.map_append, List.filterMap_append, List.map_cons,
      List.flatMap_cons, vars_append]
    rw [declared_emit registry c, ← next_emit registry c, ← declared_emitInto registry cs place x]
    rfl
end

theorem next_declared (registry : Registry) (c : Component) (index : Nat) :
    index + (((emit registry index c).1.map Emitted.statement).filterMap declared?).length =
      (emit registry index c).2 := by
  rw [declared_emit, next_emit, vars, List.length_map, List.length_zipIdx]

/-! ## The places of statements -/

/-- `home` gives the places of components that are numbered from `index` on. -/
def Homes (home : Nat → Option Place) (index : Nat) (cs : List Component) : Prop :=
  ∀ i c, cs[i]? = some c → home (index + i) = some c.place

theorem homes_cons {home : Nat → Option Place} {index : Nat} {c : Component} {cs : List Component} :
    Homes home index (c :: cs) ↔ home index = some c.place ∧ Homes home (index + 1) cs := by
  constructor
  · intro h
    refine ⟨h 0 c rfl, fun i d hd => ?_⟩
    rw [Nat.add_assoc, Nat.add_comm 1]
    exact h (i + 1) d hd
  · rintro ⟨hc, hcs⟩ i d hd
    cases i with
    | zero => rw [← Option.some.inj hd]; exact hc
    | succ i => rw [Nat.add_comm i, ← Nat.add_assoc]; exact hcs i d hd

theorem homes_append {home : Nat → Option Place} {index : Nat} {cs cs' : List Component} :
    Homes home index (cs ++ cs') ↔ Homes home index cs ∧ Homes home (index + cs.length) cs' := by
  induction cs generalizing index with
  | nil => simp [Homes]
  | cons c cs ih =>
    rw [List.cons_append, homes_cons, homes_cons, ih, and_assoc, List.length_cons, Nat.add_assoc,
      Nat.add_comm 1]

mutual
/-- A statement carries the place of the component that it belongs to. -/
theorem origins_emit (registry : Registry) {home : Nat → Option Place} : (c : Component) →
    (index : Nat) → Homes home index c.preorder →
    (emit registry index c).1.map Emitted.origin =
      (owners index ((emit registry index c).1.map Emitted.statement)).map (·.bind home)
  | ⟨name, arguments, components, modifiers, place⟩, index, h => by
    rw [preorder_eq, homes_cons] at h
    have hinner := origins_emitInto registry components place
      (var ⟨name, arguments, components, modifiers, place⟩ index) (index + 1) h.1 h.2
    rw [statements_emit, emit_fst, owners_append, owners_append, owners_ownStatements,
      List.filterMap_append, declared_ownStatements]
    simp [hinner, h.1, owners, owner?, Function.comp_def]

/-- A statement that puts a component into its container carries the place of the container. -/
theorem origins_emitInto (registry : Registry) {home : Nat → Option Place} :
    (cs : List Component) → (place : Place) → (x : Var) → (index : Nat) →
    home x.index = some place → Homes home index (cs.flatMap preorder) →
    (emitInto registry place x index cs).1.map Emitted.origin =
      (owners index ((emitInto registry place x index cs).1.map Emitted.statement)).map
        (·.bind home)
  | [], place, x, index, hx, h => rfl
  | c :: cs, place, x, index, hx, h => by
    rw [List.flatMap_cons, homes_append, ← next_emit registry c] at h
    have hfirst := origins_emit registry c index h.1
    have hothers := origins_emitInto registry cs place x (emit registry index c).2 hx h.2
    simp only [emitInto, List.map_append, List.map_cons, owners_append, next_declared, owners]
    rw [hfirst, hothers]
    simp [owner?, declared?, hx]
end

theorem declared_emitAll (registry : Registry) (cs : List Component) (index : Nat) :
    ((emitAll registry index cs).map Emitted.statement).filterMap declared? =
      vars index (cs.flatMap preorder) := by
  induction cs generalizing index with
  | nil => rfl
  | cons c cs ih =>
    simp only [emitAll, List.map_append, List.filterMap_append, List.flatMap_cons, vars_append]
    rw [declared_emit registry c, ih, next_emit registry c]

theorem origins_emitAll (registry : Registry) {home : Nat → Option Place} (cs : List Component)
    (index : Nat) (h : Homes home index (cs.flatMap preorder)) :
    (emitAll registry index cs).map Emitted.origin =
      (owners index ((emitAll registry index cs).map Emitted.statement)).map (·.bind home) := by
  induction cs generalizing index with
  | nil => rfl
  | cons c cs ih =>
    rw [List.flatMap_cons, homes_append, ← next_emit registry c] at h
    simp only [emitAll, List.map_append, owners_append, next_declared]
    rw [origins_emit registry c index h.1, ih _ h.2]

/-! ## What is emitted -/

/-- What is emitted for the components `cs`: statements of their own, statements that put another
component into them, and empty lines. -/
inductive StemsFrom (registry : Registry) (cs : List Component) : Emitted → Prop where
  | own {c : Component} {s : Statement} (hc : c ∈ cs) (index : Nat)
      (hs : s ∈ c.ownStatements registry (c.var index)) : StemsFrom registry cs ⟨s, some c.place⟩
  | append {c : Component} (hc : c ∈ cs) (index : Nat) (child : Component) (index' : Nat) :
      StemsFrom registry cs ⟨.append (c.var index) (child.var index'), some c.place⟩
  | blank : StemsFrom registry cs ⟨.blank, none⟩

theorem StemsFrom.mono {registry : Registry} {cs cs' : List Component} {e : Emitted}
    (h : StemsFrom registry cs e) (hcs : cs ⊆ cs') : StemsFrom registry cs' e := by
  cases h with
  | own hc index hs => exact .own (hcs hc) index hs
  | append hc index child index' => exact .append (hcs hc) index child index'
  | blank => exact .blank

mutual
theorem stemsFrom_emit (registry : Registry) : (c : Component) → (index : Nat) →
    ∀ e ∈ (emit registry index c).1, StemsFrom registry c.preorder e
  | ⟨name, arguments, components, modifiers, place⟩, index => by
    rw [emit_fst, preorder_eq]
    simp only [List.forall_mem_append, List.forall_mem_map, List.forall_mem_singleton]
    refine ⟨⟨fun s hs => .own List.mem_cons_self index hs, ?_⟩, .blank⟩
    exact stemsFrom_emitInto registry components ⟨name, arguments, components, modifiers, place⟩
      index (index + 1)

theorem stemsFrom_emitInto (registry : Registry) : (cs : List Component) → (c : Component) →
    (k index : Nat) → ∀ e ∈ (emitInto registry c.place (c.var k) index cs).1,
      StemsFrom registry (c :: cs.flatMap preorder) e
  | [], c, k, index => by simp [emitInto]
  | d :: cs, c, k, index => by
    simp only [emitInto, List.forall_mem_append, List.forall_mem_cons, List.flatMap_cons]
    refine ⟨fun e he => ?_, .append List.mem_cons_self k d index, fun e he => ?_⟩
    · exact (stemsFrom_emit registry d index e he).mono (by simp)
    · exact (stemsFrom_emitInto registry cs c k _ e he).mono (by simp)
end

theorem stemsFrom_emitAll (registry : Registry) (cs : List Component) (index : Nat) :
    ∀ e ∈ emitAll registry index cs, StemsFrom registry (cs.flatMap preorder) e := by
  induction cs generalizing index with
  | nil => simp [emitAll]
  | cons c cs ih =>
    simp only [emitAll, List.forall_mem_append, List.flatMap_cons]
    refine ⟨fun e he => ?_, fun e he => ?_⟩
    · exact (stemsFrom_emit registry c index e he).mono (by simp)
    · exact (ih _ e he).mono (by simp)

end Component

end UiMarkup
