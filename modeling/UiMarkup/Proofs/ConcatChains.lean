import UiMarkup.Proofs.BuildConcat

/-!
# A chain of concatenations counts once

In `x.build().concat(a).concat(b)` the outer call holds the inner one, and a walk meets the outer
call first. Only the innermost `concat` is called on the result of `build`, so the chain gives one
pattern, and after it come the patterns inside `x`, inside `a` and inside `b`, in this order.

* `patternsIn d t`: the patterns inside a tree.
* `methodCall? d method call`: what the method is called on, and what is passed to it.
* `Concats d start args t`: the tree `t` is `start.concat(a₁)…concat(aₙ)`.
* `patternsIn_of_concats`: the calls of `concat` on a call of `concat` give no patterns.
* `chain_counts_once`: the patterns of a chain.
-/

namespace UiMarkup

open TypeScript (Tree Document Kind Role)

/-! ## Parts of a node -/

namespace TypeScript.Tree

/-- The node is a token or a comment. -/
def isFiller (t : Tree) : Bool :=
  t.kind == .mark || t.kind == .comment

/-- The parts of a node of the given kind: its children without the tokens and comments among them.
These play no role and have nothing below them. -/
def partsOf? (kind : Kind) (t : Tree) : Option (List Tree) :=
  if t.kind = kind ∧ ∀ c ∈ t.children, c.isFiller → c.role = none ∧ c.children.isEmpty then
    some (t.children.filter fun c => !c.isFiller)
  else none

theorem partsOf?_eq_some_iff {kind : Kind} {t : Tree} {parts : List Tree} :
    t.partsOf? kind = some parts ↔
      t.kind = kind ∧ (∀ c ∈ t.children, c.isFiller → c.role = none ∧ c.children = []) ∧
        t.children.filter (fun c => !c.isFiller) = parts := by
  simp [partsOf?, and_assoc]

/-- A part in a role is found among the parts. -/
theorem child?_of_partsOf? {kind : Kind} {t : Tree} {parts : List Tree} {role : Role}
    (h : t.partsOf? kind = some parts) :
    t.child? role = parts.find? fun c => c.role == some role := by
  obtain ⟨-, hfillers, rfl⟩ := partsOf?_eq_some_iff.mp h
  rw [child?, ← List.head?_filter, ← List.head?_filter, List.filter_filter]
  congr 1
  refine List.filter_congr fun c hc => ?_
  cases hfiller : c.isFiller with
  | true => simp [(hfillers c hc hfiller).1]
  | false => simp

/-- A walk meets a node and then what is below each of its children. -/
theorem walk_eq (t : Tree) : t.walk = t :: t.children.flatMap walk := by
  obtain ⟨r, k, s, ts⟩ := t
  have hfrom (i : Nat) : (addressedFrom i ts).map Prod.snd = ts.flatMap walk := by
    induction ts generalizing i with
    | nil => rfl
    | cons t ts ih =>
      rw [addressedFrom, List.map_append, List.map_map, ih, List.flatMap_cons, walk_eq_addressed]
      rfl
  rw [walk_eq_addressed, addressed, List.map_cons, hfrom]
  rfl

end TypeScript.Tree

open TypeScript.Tree

namespace Analysis

/-! ## Patterns inside a tree -/

/-- The patterns inside a tree of a document, an outer one before those inside it. -/
def patternsIn (d : Document) (t : Tree) : List ConcatPattern :=
  t.walk.filterMap (patternAt? d (needsFull d.text))

variable {d : Document} {t : Tree}

theorem patternsIn_eq (d : Document) (t : Tree) : patternsIn d t =
    (patternAt? d (needsFull d.text) t).toList ++ t.children.flatMap (patternsIn d) := by
  have hbelow : (t.children.flatMap walk).filterMap (patternAt? d (needsFull d.text)) =
      t.children.flatMap (patternsIn d) := List.filterMap_flatMap
  rw [patternsIn, walk_eq, List.filterMap_cons, hbelow]
  cases patternAt? d (needsFull d.text) t <;> rfl

theorem patternAt?_eq_none_of_kind {full : Bool} (h : t.kind ≠ .call) :
    patternAt? d full t = none := by
  simp [patternAt?, h]

theorem patternsIn_eq_nil_of_filler (hfiller : t.isFiller) (hleaf : t.children = []) :
    patternsIn d t = [] := by
  have hkind : t.kind ≠ .call := by
    intro h
    simp [isFiller, h] at hfiller
  simp [patternsIn_eq d t, patternAt?_eq_none_of_kind hkind, hleaf]

/-- The patterns inside a node: its own, and those inside its parts. -/
theorem patternsIn_of_partsOf? {kind : Kind} {parts : List Tree}
    (h : t.partsOf? kind = some parts) : patternsIn d t =
      (patternAt? d (needsFull d.text) t).toList ++ parts.flatMap (patternsIn d) := by
  obtain ⟨-, hfillers, rfl⟩ := partsOf?_eq_some_iff.mp h
  have hparts (cs : List Tree) (hcs : ∀ c ∈ cs, c.isFiller → c.children = []) :
      cs.flatMap (patternsIn d) = (cs.filter fun c => !c.isFiller).flatMap (patternsIn d) := by
    induction cs with
    | nil => rfl
    | cons c cs ih =>
      have hrest := ih fun c' hc' => hcs c' (List.mem_cons_of_mem c hc')
      cases hfiller : c.isFiller with
      | true =>
        have hleaf := hcs c List.mem_cons_self hfiller
        simp [hfiller, hrest, patternsIn_eq_nil_of_filler hfiller hleaf]
      | false => simp [hfiller, hrest]
  rw [patternsIn_eq, hparts t.children fun c hc hfiller => (hfillers c hc hfiller).2]

/-- A node that is no call adds nothing to the patterns inside its parts. -/
theorem patternsIn_of_no_call {kind : Kind} {parts : List Tree} (hkind : kind ≠ .call)
    (h : t.partsOf? kind = some parts) : patternsIn d t = parts.flatMap (patternsIn d) := by
  have hnone : patternAt? d (needsFull d.text) t = none :=
    patternAt?_eq_none_of_kind ((partsOf?_eq_some_iff.mp h).1 ▸ hkind)
  rw [patternsIn_of_partsOf? h, hnone]
  rfl

/-- The patterns inside a node of a tree stand together among those inside the tree. -/
theorem patternsIn_infix {n : Tree} {address : List Nat} (h : t.at? address = some n) :
    patternsIn d n <:+: patternsIn d t := by
  induction address generalizing t with
  | nil =>
    obtain rfl := Option.some.inj h
    exact List.infix_rfl
  | cons i address ih =>
    obtain ⟨c, hc, hn⟩ := at?_cons_eq_some.mp h
    obtain ⟨before, after, hsplit⟩ := List.append_of_mem (List.mem_of_getElem? hc)
    refine (ih hn).trans ⟨(patternAt? d (needsFull d.text) t).toList ++
      before.flatMap (patternsIn d), after.flatMap (patternsIn d), ?_⟩
    rw [patternsIn_eq d t, hsplit, List.flatMap_append, List.flatMap_cons]
    simp only [List.append_assoc]

/-! ## Calls of methods -/

/-- The object, if the node is a member `object.name`. -/
def memberOf? (d : Document) (name : String) (member : Tree) : Option Tree :=
  match member.partsOf? .member with
  | some [object, property] =>
    if object.role = some .object ∧ property.role = some .property ∧
        (property.partsOf? .propertyIdentifier).any List.isEmpty ∧ d.textOf property = name then
      some object
    else none
  | _ => none

/-- The object and what is passed, if the node is a call `object.method(passed)`. -/
def methodCall? (d : Document) (method : String) (call : Tree) : Option (Tree × List Tree) :=
  match call.partsOf? .call with
  | some [function, arguments] =>
    if function.role = some .function ∧ arguments.role = some .arguments then
      (memberOf? d method function).bind fun object =>
        (arguments.partsOf? .arguments).map fun passed => (object, passed)
    else none
  | _ => none

theorem memberOf?_eq_some {name : String} {member object : Tree}
    (h : memberOf? d name member = some object) : ∃ property,
      member.partsOf? .member = some [object, property] ∧ object.role = some .object ∧
      property.role = some .property ∧ property.partsOf? .propertyIdentifier = some [] ∧
      d.textOf property = name := by
  unfold memberOf? at h
  split at h
  · next object' property hparts =>
    obtain ⟨⟨hobject, hproperty, hleaf, htext⟩, h⟩ := Option.ite_none_right_eq_some.mp h
    obtain rfl := Option.some.inj h
    refine ⟨property, hparts, hobject, hproperty, ?_, htext⟩
    simpa using (Option.any_eq_true _ _).mp hleaf
  · cases h

theorem methodCall?_eq_some {method : String} {call object : Tree} {passed : List Tree}
    (h : methodCall? d method call = some (object, passed)) : ∃ function arguments,
      call.partsOf? .call = some [function, arguments] ∧ function.role = some .function ∧
      arguments.role = some .arguments ∧ memberOf? d method function = some object ∧
      arguments.partsOf? .arguments = some passed := by
  unfold methodCall? at h
  split at h
  · next function arguments hparts =>
    obtain ⟨⟨hfunction, harguments⟩, h⟩ := Option.ite_none_right_eq_some.mp h
    obtain ⟨object', hobject, h⟩ := Option.bind_eq_some_iff.mp h
    obtain ⟨passed', hpassed, h⟩ := Option.map_eq_some_iff.mp h
    obtain ⟨rfl, rfl⟩ := Prod.mk.inj h
    exact ⟨function, arguments, hparts, hfunction, harguments, hobject, hpassed⟩
  · cases h

variable {method : String} {call object : Tree} {passed : List Tree}

/-- A call of a method is one for the analysis. -/
theorem callsMethod_of_methodCall? (h : methodCall? d method call = some (object, passed)) :
    call.kind = .call ∧ CallsMethod d method call object := by
  obtain ⟨function, arguments, hcall, hfunction, -, hmember, -⟩ := methodCall?_eq_some h
  obtain ⟨property, hparts, hobject, hproperty, -, htext⟩ := memberOf?_eq_some hmember
  refine ⟨(partsOf?_eq_some_iff.mp hcall).1, function, property, ?_,
    (partsOf?_eq_some_iff.mp hparts).1, ?_, htext, ?_⟩
  · simp [child?_of_partsOf? hcall, hfunction]
  · simp [child?_of_partsOf? hparts, hobject, hproperty]
  · simp [child?_of_partsOf? hparts, hobject]

/-- The first thing that a call passes. -/
theorem passesFirst_of_methodCall? {argument : Tree}
    (h : methodCall? d method call = some (object, argument :: passed)) :
    PassesFirst call argument := by
  obtain ⟨function, arguments, hcall, hfunction, harguments, -, hpassed⟩ := methodCall?_eq_some h
  have hchild : call.child? .arguments = some arguments := by
    simp [child?_of_partsOf? hcall, hfunction, harguments]
  rw [← firstArgument?_eq_some_iff, firstArgument?, hchild]
  obtain ⟨-, -, hfilter⟩ := partsOf?_eq_some_iff.mp hpassed
  simp only [Tree.namedChildren, ← List.head?_filter, List.filter_filter]
  have hsame : (arguments.children.filter fun t => t.kind != .comment && t.kind.isNamed) =
      arguments.children.filter fun t => !t.isFiller :=
    List.filter_congr fun c _ => by
      simp [isFiller, Kind.isNamed, bne, Bool.and_comm]
  rw [hsame, hfilter, List.head?_cons]

/-- The patterns inside a call of a method: its own, those inside the object, and those inside what
is passed. -/
theorem patternsIn_of_methodCall? (h : methodCall? d method call = some (object, passed)) :
    patternsIn d call = (patternAt? d (needsFull d.text) call).toList ++
      (patternsIn d object ++ passed.flatMap (patternsIn d)) := by
  obtain ⟨function, arguments, hcall, -, -, hmember, hpassed⟩ := methodCall?_eq_some h
  obtain ⟨property, hparts, -, -, hleaf, -⟩ := memberOf?_eq_some hmember
  have hproperty : patternsIn d property = [] := patternsIn_of_no_call (by decide) hleaf
  have hfunction : patternsIn d function = patternsIn d object := by
    rw [patternsIn_of_no_call (by decide) hparts]
    simp [hproperty]
  have harguments : patternsIn d arguments = passed.flatMap (patternsIn d) :=
    patternsIn_of_no_call (by decide) hpassed
  rw [patternsIn_of_partsOf? hcall]
  simp [hfunction, harguments]

/-- A node calls one method of one object. -/
theorem CallsMethod.unique {method' : String} {object' : Tree}
    (h : CallsMethod d method call object) (h' : CallsMethod d method' call object') :
    method = method' ∧ object = object' := by
  obtain ⟨function, property, hfunction, -, hproperty, htext, hobject⟩ := h
  obtain ⟨function', property', hfunction', -, hproperty', htext', hobject'⟩ := h'
  obtain rfl := Option.some.inj (hfunction.symm.trans hfunction')
  obtain rfl := Option.some.inj (hproperty.symm.trans hproperty')
  exact ⟨htext.symm.trans htext', Option.some.inj (hobject.symm.trans hobject')⟩

/-- A call gives no pattern unless it is of `concat` on a call of `build`. -/
theorem patternAt?_eq_none_of_calls {full : Bool} (h : CallsMethod d method call object)
    (hnot : ¬ (method = "concat" ∧ ∃ left, CallsMethod d "build" object left)) :
    patternAt? d full call = none := by
  rw [Option.eq_none_iff_forall_ne_some]
  intro p hp
  obtain ⟨left, right, hcall⟩ := concatenates_of_patternAt? hp
  obtain ⟨receiver, hconcat, -, hbuild⟩ := hcall.receiver
  obtain ⟨rfl, rfl⟩ := h.unique hconcat
  exact hnot ⟨rfl, left, hbuild⟩

/-! ## Chains -/

/-- The tree `t` is `start.concat(a₁)…concat(aₙ)`, where `args` are the arguments in their order. -/
inductive Concats (d : Document) : (start : Tree) → (args : List Tree) → (t : Tree) → Prop where
  | nil (start : Tree) : Concats d start [] start
  | cons {start inner argument t : Tree} {args : List Tree}
      (first : methodCall? d "concat" inner = some (start, [argument]))
      (rest : Concats d inner args t) : Concats d start (argument :: args) t

/-- Calls of `concat` on a call of `concat` add no patterns of their own. -/
theorem patternsIn_of_concats {start : Tree} {args : List Tree}
    (hstart : CallsMethod d "concat" start object) (h : Concats d start args t) :
    patternsIn d t = patternsIn d start ++ args.flatMap (patternsIn d) := by
  -- from the inside out: all that the next call needs is that the one below it calls `concat`
  induction h generalizing object with
  | nil start => simp
  | @cons start inner argument t args first rest ih =>
    have hinner := (callsMethod_of_methodCall? first).2
    have hnone : patternAt? d (needsFull d.text) inner = none := by
      refine patternAt?_eq_none_of_calls hinner ?_
      rintro ⟨-, left, hbuild⟩
      simpa using (hstart.unique hbuild).1
    rw [ih hinner, patternsIn_of_methodCall? first, hnone]
    simp

/-- A call of `build` adds no pattern to those inside its object. -/
theorem patternsIn_of_build {built x : Tree} (h : methodCall? d "build" built = some (x, [])) :
    patternsIn d built = patternsIn d x := by
  have hnone : patternAt? d (needsFull d.text) built = none :=
    patternAt?_eq_none_of_calls (callsMethod_of_methodCall? h).2 (by simp)
  rw [patternsIn_of_methodCall? h, hnone]
  simp

/-- Around the tree there are only nodes that are no calls, and in them tokens and comments. -/
inductive StandsAlone (t : Tree) : Tree → Prop where
  | here : StandsAlone t t
  | within {kind : Kind} {inner outer : Tree} (hkind : kind ≠ .call)
      (only : outer.partsOf? kind = some [inner]) (rest : StandsAlone t inner) :
      StandsAlone t outer

theorem patternsIn_of_standsAlone {outer : Tree} (h : StandsAlone t outer) :
    patternsIn d outer = patternsIn d t := by
  induction h with
  | here => rfl
  | within hkind only rest ih =>
    rw [patternsIn_of_no_call hkind only, ← ih]
    simp

/-- **A chain of concatenations counts once.** Of the calls in `x.build().concat(a₁)…concat(aₙ)`,
the innermost `concat` gives the one pattern, which stands where this call stands and has the sides
`x` and `a₁`; no expression is blank. After it come the patterns inside `x`, then those inside `a₁`
and so on to `aₙ`. These patterns stand together among the patterns of the document, and are all of
them if the document holds only the chain. -/
theorem chain_counts_once {d : Document} {x built a t : Tree} {args : List Tree}
    (hbuild : methodCall? d "build" built = some (x, []))
    (hchain : Concats d built (a :: args) t) (hx : Shows d x) (ha : Shows d a) :
    ∃ innermost p, methodCall? d "concat" innermost = some (built, [a]) ∧
      Concats d innermost args t ∧ Describes d innermost x a p ∧
      patternsIn d t = p :: (patternsIn d x ++ (a :: args).flatMap (patternsIn d)) ∧
      (∀ address, d.root.at? address = some t → patternsIn d t <:+: patterns d) ∧
      (StandsAlone t d.root → patterns d = patternsIn d t) := by
  obtain ⟨⟩ | ⟨first, rest⟩ := hchain
  rename_i innermost
  obtain ⟨hkind, hconcat⟩ := callsMethod_of_methodCall? first
  obtain ⟨hbuiltKind, hcalls⟩ := callsMethod_of_methodCall? hbuild
  have hconcatenates : Concatenates d innermost x a :=
    ⟨hkind, ⟨built, hconcat, hbuiltKind, hcalls⟩, passesFirst_of_methodCall? first, hx, ha⟩
  obtain ⟨p, hp, hdescribes⟩ := exists_patternAt? hconcatenates
  have hinnermost : patternsIn d innermost = p :: (patternsIn d x ++ patternsIn d a) := by
    rw [patternsIn_of_methodCall? first, patternsIn_of_build hbuild, hp]
    simp
  refine ⟨innermost, p, first, rest, hdescribes, ?_, fun _ => patternsIn_infix,
    patternsIn_of_standsAlone⟩
  rw [patternsIn_of_concats hconcat rest, hinnermost]
  simp

/-- A chain of two, with patterns inside `x` and inside the first argument. -/
def chainDocument : Document :=
  let inner (start : Nat) :=
    callTree (callTree (leaf .identifier start (start + 1)) (start + 7) (start + 9) [])
      (start + 16) (start + 19) [leaf .identifier (start + 17) (start + 18)]
  let x := .node none .call ⟨0, 22⟩
    [(leaf .identifier 0 1).withRole .function,
      .node (some .arguments) .arguments ⟨1, 22⟩ [leaf .mark 1 2, inner 2, leaf .mark 21 22]]
  let first := callTree (callTree x 28 30 []) 37 66 [leaf .comment 38 45, inner 46]
  ⟨"f(p.build().concat(q)).build().concat(/* b */ b.build().concat(c)).concat(x[0]);".toList,
    .node none .program ⟨0, 80⟩
      [.node none .expressionStatement ⟨0, 80⟩
        [callTree first 73 79 [subscriptTree 74 78], leaf .mark 79 80]]⟩

theorem chain_counts_once_nested :
    let d := chainDocument
    ∃ x a b p, Shows d x ∧ Shows d a ∧ (patterns d).length = 3 ∧
      patterns d = p :: (patternsIn d x ++ [a, b].flatMap (patternsIn d)) := by
  intro d
  have h : ((patterns d).length == 3 &&
      (d.root.partsOf? .program).any fun statements => statements.length == 1 &&
        statements.all fun statement =>
          (statement.partsOf? .expressionStatement).any fun ts => ts.length == 1 &&
            ts.all fun t => (methodCall? d "concat" t).any fun last => last.2.length == 1 &&
              (methodCall? d "concat" last.1).any fun first => first.2.length == 1 &&
                (methodCall? d "build" first.1).any fun build => build.2.isEmpty &&
                  (build.1 :: first.2).all fun side =>
                    (d.textOf side).toList.any (!Text.isBlank ·)) = true := by decide +kernel
  simp only [Option.any_eq_true, Bool.and_eq_true, beq_iff_eq, List.length_eq_one_iff,
    List.all_eq_true, List.any_eq_true, List.isEmpty_iff, Bool.not_eq_true',
    ← Bool.not_eq_true] at h
  obtain ⟨hthree, statements, hroot, ⟨statement, rfl⟩, h⟩ := h
  obtain ⟨ts, hstatement, ⟨t, rfl⟩, h⟩ := h statement (List.mem_singleton_self _)
  obtain ⟨⟨inner, _⟩, hlast, ⟨b, rfl⟩, ⟨built, _⟩, hfirst, ⟨a, rfl⟩, ⟨x, _⟩, hbuild, rfl, hshows⟩ :=
    h t (List.mem_singleton_self _)
  have hx : Shows d x := hshows x (by simp)
  have ha : Shows d a := hshows a (by simp)
  obtain ⟨-, p, -, -, -, hpatterns, -, halone⟩ :=
    chain_counts_once hbuild (.cons hfirst (.cons hlast (.nil t))) hx ha
  have hroot : StandsAlone t d.root :=
    .within (by decide) hroot (.within (by decide) hstatement .here)
  exact ⟨x, a, b, p, hx, ha, hthree, (halone hroot).trans hpatterns⟩

end Analysis

end UiMarkup
