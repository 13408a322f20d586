import Mathlib.Data.List.Forall2
import UiMarkup.Proofs.Surveys
import UiMarkup.Proofs.Tokens

/-!
# The name tokens of a forest

Each component of a forest, at any depth, is derived from a row of tokens that starts with its name.
Reading a source goes through its tokens from left to right, also after a component that is dropped,
so the names of all components in preorder stand in the source in that order.

* `Grammar.Names p locate ts c t`: within `ts`, the component `c` is derived with the name `t`.
* `exists_names_of_survey`: the names of the components of a survey, in preorder.
-/

namespace UiMarkup

/-! ## Names in a derivation -/

namespace Grammar

/-- Within the tokens `ts`, the component `c` is derived with the name `t`. -/
def Names (p : Profile) (locate : Nat → Place) (ts : List Token) (c : UiMarkup.Component)
    (t : Token) : Prop :=
  ∃ used isSealed, t :: used <:+: ts ∧ Component p locate (t :: used) c isSealed

/-- The name of a component is one of the tokens, an identifier, and gives the component
its place. -/
theorem Names.token {p : Profile} {locate : Nat → Place} {ts : List Token} {c : UiMarkup.Component}
    {t : Token} (h : Names p locate ts c t) :
    t ∈ ts ∧ t.kind = .identifier ∧ t.text = c.name ∧ c.place = locate t.position := by
  obtain ⟨used, isSealed, hused, hc⟩ := h
  cases hc with
  | call hn ha hb hsome hm => exact ⟨hused.subset List.mem_cons_self, hn, rfl, rfl⟩

/-- Within the tokens `ts`, the components `cs` are derived with names that stand there in the same
order. -/
def NamesInOrder (p : Profile) (locate : Nat → Place) (ts : List Token)
    (cs : List UiMarkup.Component) (names : List Token) : Prop :=
  names.Sublist ts ∧ List.Forall₂ (Names p locate ts) cs names

section
variable {p : Profile} {locate : Nat → Place}

theorem NamesInOrder.mono {ts ts' : List Token} {cs : List UiMarkup.Component} {names : List Token}
    (h : NamesInOrder p locate ts cs names) (hts : ts <:+: ts') :
    NamesInOrder p locate ts' cs names := by
  refine ⟨h.1.trans hts.sublist, h.2.imp ?_⟩
  rintro c t ⟨used, isSealed, hinfix, hc⟩
  exact ⟨used, isSealed, hinfix.trans hts, hc⟩

theorem NamesInOrder.append {ts ts' : List Token} {cs cs' : List UiMarkup.Component}
    {names names' : List Token} (h : NamesInOrder p locate ts cs names)
    (h' : NamesInOrder p locate ts' cs' names') :
    NamesInOrder p locate (ts ++ ts') (cs ++ cs') (names ++ names') := by
  have hleft := h.mono (List.prefix_append ts ts').isInfix
  have hright := h'.mono (List.suffix_append ts ts').isInfix
  exact ⟨h.1.append h'.1, List.rel_append hleft.2 hright.2⟩

theorem infix_between (l r : Token) (ts : List Token) : ts <:+: l :: (ts ++ [r]) :=
  ⟨[l], [r], by simp⟩

/-- The name of a component stands before those of the components that it contains. -/
theorem NamesInOrder.cons {name : Token} {ts ts' ts'' : List Token} {c : UiMarkup.Component}
    {isSealed : Bool} {names : List Token}
    (h : NamesInOrder p locate ts' (c.components.flatMap UiMarkup.Component.preorder) names)
    (hc : Component p locate (name :: (ts ++ ts' ++ ts'')) c isSealed) :
    NamesInOrder p locate (name :: (ts ++ ts' ++ ts'')) c.preorder (name :: names) := by
  have hinner : ts' <:+: ts ++ ts' ++ ts'' := ⟨ts, ts'', rfl⟩
  have hwhole := h.mono (hinner.trans (List.suffix_cons name _).isInfix)
  cases c
  rw [UiMarkup.Component.preorder]
  exact ⟨.cons_cons name (h.1.trans hinner.sublist),
    .cons ⟨_, isSealed, List.infix_rfl, hc⟩ hwhole.2⟩

mutual
/-- The components of a derivation in preorder, with their names. -/
theorem names_of_component {ts : List Token} {c : UiMarkup.Component} {isSealed : Bool} :
    Component p locate ts c isSealed → ∃ names, NamesInOrder p locate ts c.preorder names
  | .call hn ha hb hsome hm => by
    obtain ⟨names, hnames⟩ := names_of_block hb
    exact ⟨_, hnames.cons (.call hn ha hb hsome hm)⟩

theorem names_of_block {ts : List Token} {inner : Option (List UiMarkup.Component)} :
    Block p locate ts inner →
      ∃ names, NamesInOrder p locate ts ((inner.getD []).flatMap UiMarkup.Component.preorder) names
  | .absent => ⟨[], List.Sublist.refl _, .nil⟩
  | .present hl h hr => by
    obtain ⟨names, hnames⟩ := names_of_entries h
    exact ⟨names, hnames.mono (infix_between _ _ _)⟩

theorem names_of_entries {ts : List Token} {cs : List UiMarkup.Component} :
    Entries p locate ts cs →
      ∃ names, NamesInOrder p locate ts (cs.flatMap UiMarkup.Component.preorder) names
  | .nil => ⟨[], List.Sublist.refl _, .nil⟩
  | .cons hn h hs => by
    obtain ⟨names, hnames⟩ := names_of_component h
    obtain ⟨names', hnames'⟩ := names_of_entries hs
    exact ⟨names ++ names', hnames.append hnames'⟩
end

end

end Grammar

/-! ## Names in a survey -/

namespace Survey

@[simp] theorem nodes_node (start stop : Nat) (c : Component) (attempts : List Attempt)
    (halt : Option Halt) :
    Survey.nodes ⟨⟨start, stop, .node c⟩ :: attempts, halt⟩ =
      c :: Survey.nodes ⟨attempts, halt⟩ := rfl

end Survey

namespace Parser

/-- The components of a survey in preorder, with their names. -/
theorem exists_names_of_survey (ctx : Context) (index : Nat) (previous : Option Token)
    (ts : List Token) :
    ∃ names, Grammar.NamesInOrder ctx.profile ctx.locate ts
      ((survey ctx index previous ts).nodes.flatMap Component.preorder) names := by
  have hrun := surveyed ctx index previous ts
  generalize survey ctx index previous ts = s at hrun
  induction hrun with
  | done | halted => exact ⟨[], List.nil_sublist _, .nil⟩
  | @skip index previous t ts s hk hs h ih =>
    obtain ⟨names, hnames⟩ := ih
    exact ⟨names, hnames.mono (List.suffix_cons t ts).isInfix⟩
  | @attempt index previous used rest outcome s hs hne hy h ih =>
    obtain ⟨names', hnames'⟩ := ih
    cases hy with
    | dropped hc => exact ⟨names', hnames'.mono (List.suffix_append used _).isInfix⟩
    | node hc =>
      obtain ⟨used', isSealed, heq, hused, -⟩ := component_sound ctx maxDepth hc
      obtain rfl := List.append_cancel_right heq
      obtain ⟨names, hnames⟩ := Grammar.names_of_component hused
      exact ⟨names ++ names', hnames.append hnames'⟩

end Parser

end UiMarkup
