import Mathlib.Data.List.Forall2
import Mathlib.Data.List.TakeWhile
import UiMarkup.Analysis.Pattern
import UiMarkup.Proofs.Spans

/-!
# The analysis finds exactly the concatenations

A concatenation is a call of `concat` on the result of a call of `build`. The analysis gives one
pattern for each of them, in the order of the tree, and nothing else.

* `Concatenates d call left right`: the node `call` concatenates `left` and `right`.
* `Describes d call left right p`: the pattern `p` says so, and whether the sides are fixed.
* `exists_patternAt?`, `describes_of_patternAt?`: the pattern at a node.
* `charRange_ne`: different concatenations stand at different places.
* `patterns_are_the_concatenations`: the patterns of a document.
-/

namespace UiMarkup

open TypeScript (Tree Document)

/-- A text is trimmed away if it is blank. -/
theorem Text.trim_eq_nil_iff {s : List Char} : trim s = [] ↔ ∀ c ∈ s, isBlank c := by
  have hdrop (t : List Char) : t.dropWhile isBlank = [] ↔ ∀ c ∈ t, isBlank c :=
    List.dropWhile_eq_nil_iff
  rw [trim, trimEnd, List.reverse_eq_nil_iff, hdrop]
  constructor
  · intro h c hc
    rw [← List.takeWhile_append_dropWhile (p := isBlank) (l := s)] at hc
    rcases List.mem_append.mp hc with hc | hc
    · exact List.all_eq_true.mp List.all_takeWhile c hc
    · exact h c (List.mem_reverse.mpr hc)
  · intro h c hc
    exact h c ((List.dropWhile_sublist isBlank).subset (List.mem_reverse.mp hc))

namespace Analysis

/-! ## Concatenations -/

/-- The node calls the method of the given name on `object`. -/
def CallsMethod (d : Document) (method : String) (call object : Tree) : Prop :=
  ∃ function property, call.child? .function = some function ∧ function.kind = .member ∧
    function.child? .property = some property ∧ d.textOf property = method ∧
    function.child? .object = some object

/-- The first thing that the node passes is `argument`; tokens and comments do not count. -/
def PassesFirst (call argument : Tree) : Prop :=
  ∃ arguments, call.child? .arguments = some arguments ∧
    (argument.kind.isNamed = true ∧ argument.kind ≠ .comment) ∧
    ∃ before after, arguments.children = before ++ argument :: after ∧
      ∀ t ∈ before, t.kind.isNamed = false ∨ t.kind = .comment

/-- The node covers something that is not blank. -/
def Shows (d : Document) (t : Tree) : Prop :=
  ∃ c ∈ (d.textOf t).toList, ¬ Text.isBlank c

/-- The node is a call `left.build().concat(right)`. -/
structure Concatenates (d : Document) (call left right : Tree) : Prop where
  kind : call.kind = .call
  receiver : ∃ receiver, CallsMethod d "concat" call receiver ∧ receiver.kind = .call ∧
    CallsMethod d "build" receiver left
  argument : PassesFirst call right
  left_shows : Shows d left
  right_shows : Shows d right

/-- A substitution in a template, a subscript or a loop variable stands in the tree. -/
def Varies (d : Document) (t : Tree) : Prop :=
  ∃ address n, t.at? address = some n ∧
    (n.kind = .templateSubstitution ∨ n.kind = .subscript ∨
      n.kind = .identifier ∧ d.textOf n ∈ loopVariables)

/-- The pattern describes the concatenation of `left` and `right` by `call`. -/
structure Describes (d : Document) (call left right : Tree) (p : ConcatPattern) : Prop where
  range : (p.start, p.stop) = d.charRange call
  left_text : p.left = String.ofList (Text.trim (d.textOf left).toList)
  right_text : p.right = String.ofList (Text.trim (d.textOf right).toList)
  dynamic : p.kind = .dynamic ↔ Varies d left ∨ Varies d right
  static : p.kind = .static ↔ ¬ (Varies d left ∨ Varies d right)
  optimizable : p.optimizable = true ↔ p.kind = .static
  tier : p.tier = tierOf (needsFull d.text) (Text.trim (d.textOf left).toList)
    (Text.trim (d.textOf right).toList)

/-! ## One node -/

theorem methodReceiver?_eq_some_iff {d : Document} {call object : Tree} {method : String} :
    methodReceiver? d call method = some object ↔ CallsMethod d method call object := by
  unfold methodReceiver? CallsMethod
  cases call.child? .function with
  | none => simp
  | some function =>
    by_cases hkind : function.kind = .member
    · cases hproperty : function.child? .property with
      | none => simp [hkind, hproperty]
      | some property => simp [hkind, hproperty]
    · simp [hkind]

theorem firstArgument?_eq_some_iff {call argument : Tree} :
    firstArgument? call = some argument ↔ PassesFirst call argument := by
  unfold firstArgument? PassesFirst
  cases call.child? .arguments with
  | none => simp
  | some arguments =>
    simp [Tree.namedChildren, List.find?_filter, List.find?_eq_some_iff_append]

theorem sides?_eq_some_iff {d : Document} {call left right : Tree} :
    sides? d call = some (left, right) ↔
      (∃ receiver, CallsMethod d "concat" call receiver ∧ receiver.kind = .call ∧
        CallsMethod d "build" receiver left) ∧ PassesFirst call right := by
  unfold sides?
  simp only [← methodReceiver?_eq_some_iff, ← firstArgument?_eq_some_iff]
  cases methodReceiver? d call "concat" with
  | none => simp
  | some receiver =>
    by_cases hkind : receiver.kind = .call
    · cases hleft : methodReceiver? d receiver "build" with
      | none => simp [hkind, hleft]
      | some object => simp [hkind, hleft, and_comm]
    · simp [hkind]

theorem variesAt_iff {d : Document} {t : Tree} : variesAt d t = true ↔
    t.kind = .templateSubstitution ∨ t.kind = .subscript ∨
      t.kind = .identifier ∧ d.textOf t ∈ loopVariables := by
  unfold variesAt
  split <;> simp_all

theorem isDynamic_iff {d : Document} {t : Tree} : isDynamic d t = true ↔ Varies d t := by
  unfold isDynamic Varies
  simp only [Tree.walk_eq_addressed, List.any_map, List.any_eq_true, Function.comp_apply,
    variesAt_iff, Prod.exists, Tree.mem_addressed]

theorem shows_iff {d : Document} {t : Tree} :
    Shows d t ↔ Text.trim (d.textOf t).toList ≠ [] := by
  simp [Shows, Ne, Text.trim_eq_nil_iff]

/-- The pattern at a node: there is one if the node is a concatenation, and it describes it. -/
theorem exists_patternAt? {d : Document} {call left right : Tree}
    (h : Concatenates d call left right) :
    ∃ p, patternAt? d (needsFull d.text) call = some p ∧ Describes d call left right p := by
  have hsides : sides? d call = some (left, right) :=
    sides?_eq_some_iff.mpr ⟨h.receiver, h.argument⟩
  have hleft := shows_iff.mp h.left_shows
  have hright := shows_iff.mp h.right_shows
  have hdynamic : (isDynamic d left || isDynamic d right) = true ↔
      Varies d left ∨ Varies d right := by
    rw [Bool.or_eq_true, isDynamic_iff, isDynamic_iff]
  simp only [patternAt?, h.kind, hsides, ne_eq, not_true_eq_false, if_false]
  rw [if_neg (by simp [hleft, hright])]
  by_cases hvaries : Varies d left ∨ Varies d right
  · rw [if_pos (hdynamic.mpr hvaries)]
    exact ⟨_, rfl, rfl, rfl, rfl, by simp [hvaries], by simp [hvaries], by simp, rfl⟩
  · rw [if_neg fun h => hvaries (hdynamic.mp h)]
    exact ⟨_, rfl, rfl, rfl, rfl, by simp [hvaries], by simp [hvaries], by simp, rfl⟩

theorem concatenates_of_patternAt? {d : Document} {full : Bool} {call : Tree} {p : ConcatPattern}
    (h : patternAt? d full call = some p) : ∃ left right, Concatenates d call left right := by
  simp only [patternAt?, Option.ite_none_left_eq_some] at h
  obtain ⟨hkind, h⟩ := h
  split at h
  · cases h
  · next left right hsides =>
    obtain ⟨hreceiver, hargument⟩ := sides?_eq_some_iff.mp hsides
    simp only [Option.ite_none_left_eq_some, Bool.or_eq_true, List.isEmpty_iff, not_or] at h
    obtain ⟨⟨hleft, hright⟩, -⟩ := h
    exact ⟨left, right, by simpa using hkind, hreceiver, hargument, shows_iff.mpr hleft,
      shows_iff.mpr hright⟩

/-- The pattern at a node describes a concatenation. -/
theorem describes_of_patternAt? {d : Document} {call : Tree} {p : ConcatPattern}
    (h : patternAt? d (needsFull d.text) call = some p) :
    ∃ left right, Concatenates d call left right ∧ Describes d call left right p := by
  obtain ⟨left, right, hcall⟩ := concatenates_of_patternAt? h
  obtain ⟨p', hp', hdescribes⟩ := exists_patternAt? hcall
  obtain rfl := Option.some.inj (hp'.symm.trans h)
  exact ⟨left, right, hcall, hdescribes⟩

/-! ## Different concatenations -/

theorem exists_getElem?_of_child? {t c : Tree} {role : TypeScript.Role}
    (h : t.child? role = some c) : ∃ i : Nat, t.children[i]? = some c ∧ c.role = some role := by
  obtain ⟨i, hi⟩ := List.getElem?_of_mem (List.mem_of_find?_eq_some h)
  exact ⟨i, hi, by simpa using List.find?_some h⟩

/-- The object of a method lies below the function of the call. -/
theorem CallsMethod.below {d : Document} {method : String} {call object : Tree}
    (h : CallsMethod d method call object) :
    ∃ (i j : Nat) (f : Tree), call.children[i]? = some f ∧ f.role = some .function ∧
      call.at? [i, j] = some object := by
  obtain ⟨f, -, hf, -, -, -, hobject⟩ := h
  obtain ⟨i, hi, hrole⟩ := exists_getElem?_of_child? hf
  obtain ⟨j, hj, -⟩ := exists_getElem?_of_child? hobject
  refine ⟨i, j, f, hi, hrole, ?_⟩
  simp [Tree.at?_cons, hi, hj]

/-- The sides of a concatenation lie below different children of it. -/
theorem Concatenates.sides_below {d : Document} {call left right : Tree}
    (h : Concatenates d call left right) :
    ∃ i j a b, i ≠ j ∧ call.at? (i :: a) = some left ∧ call.at? (j :: b) = some right := by
  obtain ⟨receiver, hconcat, -, hbuild⟩ := h.receiver
  obtain ⟨arguments, harguments, -, before, after, hright, -⟩ := h.argument
  obtain ⟨i, i', f, hf, hfunction, hreceiver⟩ := hconcat.below
  obtain ⟨k, k', -, -, -, hleft⟩ := hbuild.below
  obtain ⟨j, hj, hrole⟩ := exists_getElem?_of_child? harguments
  refine ⟨i, j, [i', k, k'], [before.length], ?_, ?_, ?_⟩
  · rintro rfl
    obtain rfl := Option.some.inj (hf.symm.trans hj)
    cases hfunction.symm.trans hrole
  · exact (Tree.at?_append (b := [k, k']) hreceiver).trans hleft
  · simp [Tree.at?_cons, hj, hright]

/-- A node that shows something starts before it stops, in characters. -/
theorem Shows.start_lt_stop {d : Document} {t : Tree} (h : Shows d t) :
    Text.charsWithin t.span.start d.text < Text.charsWithin t.span.stop d.text := by
  apply Text.charsWithin_lt_of_slice_ne_nil
  obtain ⟨c, hc, -⟩ := h
  rw [Document.textOf, String.toList_ofList] at hc
  exact List.ne_nil_of_mem hc

/-- Different concatenations stand at different places. -/
theorem charRange_ne {d : Document} (h : d.root.Nested) {a b : List Nat} (hab : a < b)
    {m n left right : Tree} (hm : d.root.at? a = some m) (hn : d.root.at? b = some n)
    (hcall : Concatenates d m left right) : d.charRange m ≠ d.charRange n := by
  have hmono {x y : Nat} (hxy : x ≤ y) := Text.charsWithin_mono hxy d.text
  have hnested := h.below hm
  have hleft := hcall.left_shows.start_lt_stop
  have hright := hcall.right_shows.start_lt_stop
  obtain ⟨i, j, al, ar, hij, hal, har⟩ := hcall.sides_below
  intro heq
  simp only [Document.charRange, Text.charOffset, Int.toNat_natCast, Prod.mk.injEq] at heq
  rcases h.apart_or_below hab hm hn with hapart | ⟨k, rest, hbelow⟩
  · have h1 := hmono (hnested.within hal).1
    have h2 := hmono (hnested.within hal).2
    have h3 := hmono hapart
    omega
  · -- one of the sides lies beside the child of `m` that `n` is below
    obtain ⟨k', rest', side, hside, hne, hshows⟩ : ∃ k' rest' side,
        m.at? (k' :: rest') = some side ∧ k' ≠ k ∧
          Text.charsWithin side.span.start d.text < Text.charsWithin side.span.stop d.text := by
      by_cases hki : i = k
      · exact ⟨j, ar, right, har, fun hjk => hij (hki.trans hjk.symm), hright⟩
      · exact ⟨i, al, left, hal, hki, hleft⟩
    have h1 := hmono (hnested.within hside).1
    have h2 := hmono (hnested.within hside).2
    rcases Nat.lt_or_gt_of_ne hne with hlt | hlt
    · have h3 := hmono (hnested.apart hlt hside hbelow)
      omega
    · have h3 := hmono (hnested.apart hlt hbelow hside)
      omega

/-! ## All nodes -/

/-- What a partial function gives along a list, and where. -/
theorem forall₂_filterMap {α β : Type} (f : α → Option β) (xs : List α) :
    List.Forall₂ (fun x y => x ∈ xs ∧ f x = some y) (xs.filter fun x => (f x).isSome)
      (xs.filterMap f) := by
  induction xs with
  | nil => exact .nil
  | cons x xs ih =>
    have hrest := ih.imp fun _ _ h => And.intro (List.mem_cons_of_mem x h.1) h.2
    cases hx : f x with
    | none => simpa [hx] using hrest
    | some y => simpa [hx] using hrest

theorem patterns_eq (d : Document) :
    patterns d = d.root.addressed.filterMap fun n => patternAt? d (needsFull d.text) n.2 := by
  rw [patterns, Tree.walk_eq_addressed, List.filterMap_map]
  rfl

/-- The concatenations of a document with their addresses, in preorder. -/
def concatenations (d : Document) : List (List Nat × Tree) :=
  d.root.addressed.filter fun n => (patternAt? d (needsFull d.text) n.2).isSome

theorem mem_concatenations {d : Document} {a : List Nat} {call : Tree} :
    (a, call) ∈ concatenations d ↔
      d.root.at? a = some call ∧ ∃ left right, Concatenates d call left right := by
  rw [concatenations, List.mem_filter, Tree.mem_addressed, Option.isSome_iff_exists]
  refine and_congr_right fun _ => ⟨?_, ?_⟩
  · rintro ⟨p, hp⟩
    exact concatenates_of_patternAt? hp
  · rintro ⟨left, right, h⟩
    obtain ⟨p, hp, -⟩ := exists_patternAt? h
    exact ⟨p, hp⟩

/-- Each pattern describes the concatenation in its place. -/
theorem forall₂_patterns (d : Document) :
    List.Forall₂ (fun n p => ∃ call left right, d.root.at? n.1 = some call ∧
      Concatenates d call left right ∧ Describes d call left right p)
      (concatenations d) (patterns d) := by
  rw [patterns_eq]
  refine (forall₂_filterMap _ _).imp ?_
  rintro ⟨a, call⟩ p ⟨hmem, hp⟩
  obtain ⟨left, right, hcall, hdescribes⟩ := describes_of_patternAt? hp
  exact ⟨call, left, right, (Tree.mem_addressed _).mp hmem, hcall, hdescribes⟩

/-- Patterns of a nested tree do not repeat. -/
theorem nodup_patterns {d : Document} (h : d.root.Nested) : (patterns d).Nodup := by
  rw [patterns_eq, List.Nodup, List.pairwise_filterMap]
  refine (Tree.addressed_increasing d.root).imp_of_mem ?_
  rintro ⟨a, m⟩ ⟨b, n⟩ hm hn hab p hp p' hp' rfl
  obtain ⟨left, right, hcall, hdescribes⟩ := describes_of_patternAt? hp
  obtain ⟨left', right', -, hdescribes'⟩ := describes_of_patternAt? hp'
  exact charRange_ne h hab ((Tree.mem_addressed _).mp hm) ((Tree.mem_addressed _).mp hn) hcall
    (hdescribes.range.symm.trans hdescribes'.range)

/-- Whether a pattern needs full support is decided by the whole file. -/
theorem tier_eq_full_iff {d : Document} {call left right : Tree} {p : ConcatPattern}
    (h : Describes d call left right p) : p.tier = .full ↔ needsFull d.text = true := by
  rw [h.tier, tierOf]
  split
  · simp [*]
  · split <;> simp [*]

/-- **The analysis finds exactly the concatenations.** The patterns of a document stand for the
concatenations in its tree, one for each, in preorder: `calls` are the addresses of the
concatenations, in increasing order. A pattern is dynamic if a substitution, a subscript or a loop
variable stands in one of its sides, and otherwise static and optimizable. Either all patterns need
full support or none does. No pattern occurs twice if the spans of the tree are nested. -/
theorem patterns_are_the_concatenations (d : Document) :
    (∃ calls : List (List Nat),
      calls.Pairwise (· < ·) ∧
      (∀ a, a ∈ calls ↔
        ∃ call left right, d.root.at? a = some call ∧ Concatenates d call left right) ∧
      List.Forall₂ (fun a p => ∃ call left right, d.root.at? a = some call ∧
        Concatenates d call left right ∧ Describes d call left right p) calls (patterns d)) ∧
    ((∀ p ∈ patterns d, p.tier = .full) ∨ ∀ p ∈ patterns d, p.tier ≠ .full) ∧
    (d.root.Nested → (patterns d).Nodup) := by
  have hincreasing := (Tree.addressed_increasing d.root).filter fun n =>
    (patternAt? d (needsFull d.text) n.2).isSome
  have hall : ∀ p ∈ patterns d, p.tier = .full ↔ needsFull d.text = true := by
    intro p hp
    rw [patterns_eq, List.mem_filterMap] at hp
    obtain ⟨n, -, hn⟩ := hp
    obtain ⟨left, right, -, hdescribes⟩ := describes_of_patternAt? hn
    exact tier_eq_full_iff hdescribes
  refine ⟨⟨(concatenations d).map Prod.fst, ?_, ?_, ?_⟩, ?_, nodup_patterns⟩
  · exact List.pairwise_map.mpr hincreasing
  · intro a
    simp only [List.mem_map, Prod.exists, mem_concatenations, exists_and_right, exists_eq_right,
      exists_and_left]
  · exact List.forall₂_map_left_iff.mpr (forall₂_patterns d)
  · by_cases hfull : needsFull d.text = true
    · exact .inl fun p hp => (hall p hp).mpr hfull
    · exact .inr fun p hp htier => hfull ((hall p hp).mp htier)

/-! ## Trees of single calls -/

/-- A tree without anything below it. -/
def leaf (kind : TypeScript.Kind) (start stop : Nat) : Tree :=
  .node none kind ⟨start, stop⟩ []

/-- A call `object.method(passed)`: the name of the method ends at `name`, and the call
at `stop`. -/
def callTree (object : Tree) (name stop : Nat) (passed : List Tree) : Tree :=
  let dot := object.span.stop
  .node none .call ⟨object.span.start, stop⟩
    [.node (some .function) .member ⟨object.span.start, name⟩
      [object.withRole .object, leaf .mark dot (dot + 1),
        (leaf .propertyIdentifier (dot + 1) name).withRole .property],
      .node (some .arguments) .arguments ⟨name, stop⟩
        ([leaf .mark name (name + 1)] ++ passed ++ [leaf .mark (stop - 1) stop])]

/-- A subscript `x[0]` whose names have one character. -/
def subscriptTree (start stop : Nat) : Tree :=
  .node none .subscript ⟨start, stop⟩
    [(leaf .identifier start (start + 1)).withRole .object,
      leaf .mark (start + 1) (start + 2), leaf .number (start + 2) (stop - 1),
      leaf .mark (stop - 1) stop]

/-- One concatenation inside another. -/
def nestedDocument : Document :=
  let inner := callTree (callTree (leaf .identifier 17 18) 24 26 []) 33 39 [subscriptTree 34 38]
  ⟨"a.build().concat(b.build().concat(x[0]))".toList,
    .node none .program ⟨0, 40⟩
      [.node none .expressionStatement ⟨0, 40⟩
        [callTree (callTree (leaf .identifier 0 1) 7 9 []) 16 40 [inner]]]⟩

theorem patterns_are_the_concatenations_inside :
    nestedDocument.root.Nested ∧ (patterns nestedDocument).length = 2 ∧
      (patterns nestedDocument).Nodup := by
  have hnested : nestedDocument.root.Nested := by decide +kernel
  have hlength : (patterns nestedDocument).length = 2 := by decide +kernel
  exact ⟨hnested, hlength, (patterns_are_the_concatenations nestedDocument).2.2 hnested⟩

end Analysis

end UiMarkup
