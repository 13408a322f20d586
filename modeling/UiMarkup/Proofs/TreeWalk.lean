import Mathlib.Data.List.Basic
import UiMarkup.TypeScript.Cursor

/-!
# A walk meets every node of a tree once

A node of a tree is known by its address, the numbers of the children on the way down to it: two
nodes at different addresses may look alike. The walk of a cursor meets the nodes of a tree in the
lexicographic order of their addresses, each node before those below it, and none twice.

* `Tree.at?`: the node at an address.
* `Tree.addressed`: the nodes of a tree with their addresses, in preorder.
* `Tree.mem_addressed`, `Tree.addressed_increasing`: these are all nodes, in order and without
  repetition.
* `Cursor.Walks`: the loop of a walk, round by round, until it ends.
* `Cursor.remaining`: how many rounds are left. Every round takes one of them, also those in which
  the cursor comes back to a node.
* `Tree.walk_eq_addressed`, `Tree.cursor_loop_traverses_in_preorder`: what the loop meets.
-/

namespace UiMarkup.TypeScript

namespace Tree

/-- The node at an address, if the address does not lead out of the tree. -/
def at? (t : Tree) : List Nat → Option Tree
  | [] => some t
  | i :: address => t.children[i]?.bind fun c => c.at? address

@[simp] theorem at?_nil (t : Tree) : t.at? [] = some t := rfl

theorem at?_cons (t : Tree) (i : Nat) (address : List Nat) :
    t.at? (i :: address) = t.children[i]?.bind fun c => c.at? address := rfl

theorem at?_cons_eq_some {t n : Tree} {i : Nat} {address : List Nat} :
    t.at? (i :: address) = some n ↔ ∃ c, t.children[i]? = some c ∧ c.at? address = some n := by
  rw [at?_cons, Option.bind_eq_some_iff]

/-- One address after another. -/
theorem at?_append {t n : Tree} {a b : List Nat} (h : t.at? a = some n) :
    t.at? (a ++ b) = n.at? b := by
  induction a generalizing t with
  | nil =>
    obtain rfl := Option.some.inj h
    rfl
  | cons i a ih =>
    obtain ⟨c, hc, hn⟩ := at?_cons_eq_some.mp h
    rw [List.cons_append, at?_cons, hc]
    exact ih hn

mutual
/-- The nodes of a tree with their addresses, in preorder. -/
def addressed : Tree → List (List Nat × Tree)
  | node r k s ts => ([], node r k s ts) :: addressedFrom 0 ts

/-- The nodes of sibling trees with their addresses; the first tree is child number `i`. -/
def addressedFrom (i : Nat) : List Tree → List (List Nat × Tree)
  | [] => []
  | t :: ts => t.addressed.map (fun (address, n) => (i :: address, n)) ++ addressedFrom (i + 1) ts
end

mutual
/-- All nodes of a tree are listed, at their addresses. -/
theorem mem_addressed {address : List Nat} {n : Tree} :
    (t : Tree) → ((address, n) ∈ t.addressed ↔ t.at? address = some n)
  | node r k s ts => by
    rw [addressed, List.mem_cons, mem_addressedFrom 0 ts]
    cases address with
    | nil => simp [eq_comm]
    | cons i address => simp [at?_cons_eq_some, children]

theorem mem_addressedFrom {address : List Nat} {n : Tree} (i : Nat) :
    (ts : List Tree) → ((address, n) ∈ addressedFrom i ts ↔
      ∃ j rest c, address = (i + j) :: rest ∧ ts[j]? = some c ∧ c.at? rest = some n)
  | [] => by simp [addressedFrom]
  | t :: ts => by
    rw [addressedFrom, List.mem_append, mem_addressedFrom (i + 1) ts]
    constructor
    · rintro (h | ⟨j, rest, c, rfl, hc, hn⟩)
      · obtain ⟨⟨rest, m⟩, hm, heq⟩ := List.mem_map.mp h
        obtain ⟨rfl, rfl⟩ := Prod.mk.inj heq
        exact ⟨0, rest, t, rfl, rfl, (mem_addressed t).mp hm⟩
      · exact ⟨j + 1, rest, c, by rw [Nat.add_assoc, Nat.add_comm 1 j], hc, hn⟩
    · rintro ⟨j, rest, c, rfl, hc, hn⟩
      cases j with
      | zero =>
        obtain rfl := Option.some.inj hc
        exact .inl (List.mem_map.mpr ⟨(rest, n), (mem_addressed t).mpr hn, rfl⟩)
      | succ j => exact .inr ⟨j, rest, c, by rw [Nat.add_assoc, Nat.add_comm 1 j], hc, hn⟩
end

mutual
/-- The nodes are listed in the lexicographic order of their addresses. -/
theorem addressed_increasing :
    (t : Tree) → t.addressed.Pairwise fun m n => m.1 < n.1
  | node r k s ts => by
    rw [addressed, List.pairwise_cons]
    refine ⟨?_, addressedFrom_increasing 0 ts⟩
    rintro ⟨address, n⟩ h
    obtain ⟨j, rest, c, rfl, -⟩ := (mem_addressedFrom 0 ts).mp h
    exact List.nil_lt_cons _ _

theorem addressedFrom_increasing (i : Nat) :
    (ts : List Tree) → (addressedFrom i ts).Pairwise fun m n => m.1 < n.1
  | [] => .nil
  | t :: ts => by
    rw [addressedFrom, List.pairwise_append]
    refine ⟨?_, addressedFrom_increasing (i + 1) ts, ?_⟩
    · rw [List.pairwise_map]
      exact (addressed_increasing t).imp fun h => List.cons_lt_cons_iff.mpr (.inr ⟨rfl, h⟩)
    · -- the addresses of a tree start with a smaller number than those of the trees after it
      rintro m hm ⟨address, n⟩ hn
      obtain ⟨⟨rest, m⟩, -, rfl⟩ := List.mem_map.mp hm
      obtain ⟨j, rest', c, rfl, -⟩ := (mem_addressedFrom (i + 1) ts).mp hn
      exact List.cons_lt_cons_iff.mpr (.inl (by omega))
end

end Tree

/-! ## The recursive traversal -/

namespace Tree

mutual
/-- The nodes of a tree, each before those below it. -/
def preorder : Tree → List Tree
  | node r k s ts => node r k s ts :: preorderAll ts

/-- The nodes of a row of trees, tree by tree. -/
def preorderAll : List Tree → List Tree
  | [] => []
  | t :: ts => t.preorder ++ preorderAll ts
end

mutual
theorem map_snd_addressed : (t : Tree) → t.addressed.map Prod.snd = t.preorder
  | node r k s ts => by
    rw [addressed, preorder, List.map_cons, map_snd_addressedFrom 0 ts]

theorem map_snd_addressedFrom (i : Nat) :
    (ts : List Tree) → (addressedFrom i ts).map Prod.snd = preorderAll ts
  | [] => rfl
  | t :: ts => by
    rw [addressedFrom, preorderAll, List.map_append, List.map_map,
      map_snd_addressedFrom (i + 1) ts, ← map_snd_addressed t]
    rfl
end

end Tree

/-! ## The loop of a cursor -/

namespace Cursor

open TypeScript.Tree

/-- The loop of a walk, entered with the cursor `c`, ends after it has met nodes with the cursors
`stops`. There is one constructor for each way in which a round can go. -/
inductive Walks : (visited : Bool) → (c : Cursor) → (stops : List Cursor) → Prop where
  | down {c c' : Cursor} {stops : List Cursor} (h : c.firstChild? = some c')
      (hw : Walks false c' stops) : Walks false c (c :: stops)
  | leaf {c : Cursor} {stops : List Cursor} (h : c.firstChild? = none)
      (hw : Walks true c stops) : Walks false c (c :: stops)
  | right {c c' : Cursor} {stops : List Cursor} (h : c.nextSibling? = some c')
      (hw : Walks false c' stops) : Walks true c stops
  | up {c c' : Cursor} {stops : List Cursor} (hs : c.nextSibling? = none)
      (h : c.parent? = some c') (hw : Walks true c' stops) : Walks true c stops
  | done {c : Cursor} (hs : c.nextSibling? = none) (h : c.parent? = none) : Walks true c []

/-- The loop goes one way only. -/
theorem Walks.unique {visited : Bool} {c : Cursor} {stops stops' : List Cursor}
    (h : Walks visited c stops) (h' : Walks visited c stops') : stops = stops' := by
  induction h generalizing stops' with
  | down h _ ih =>
    cases h' with
    | down h' hw =>
      obtain rfl := Option.some.inj (h.symm.trans h')
      rw [ih hw]
    | leaf h' _ => simp [h] at h'
  | leaf h _ ih =>
    cases h' with
    | down h' _ => simp [h] at h'
    | leaf _ hw => rw [ih hw]
  | right h _ ih =>
    cases h' with
    | right h' hw =>
      obtain rfl := Option.some.inj (h.symm.trans h')
      exact ih hw
    | up hs _ _ | done hs _ => simp [h] at hs
  | up hs h _ ih =>
    cases h' with
    | right h' _ => simp [hs] at h'
    | up _ h' hw =>
      obtain rfl := Option.some.inj (h.symm.trans h')
      exact ih hw
    | done _ h' => simp [h] at h'
  | done hs h =>
    cases h' with
    | right h' _ => simp [hs] at h'
    | up _ h' _ => simp [h] at h'
    | done => rfl

/-! ### The rounds of the loop -/

/-- How many rounds the loop still takes. A node that has not been met takes one round to be met and
one to be left, and so does every node below it and below the siblings that are still to come. -/
def remaining (visited : Bool) (c : Cursor) : Nat :=
  (if visited then 1 else 2 * c.focus.size) +
    c.path.foldr (fun d rounds => 2 * sizes d.after + 1 + rounds) 0

/-- A round that goes down is one of those that remained. -/
theorem remaining_firstChild {c c' : Cursor} (h : c.firstChild? = some c') :
    c.remaining false = c'.remaining false + 1 := by
  obtain ⟨⟨r, k, s, ts⟩, path⟩ := c
  cases ts with
  | nil => cases h
  | cons t ts =>
    obtain rfl := Option.some.inj h
    simp only [remaining, size, sizes, List.foldr_cons, Bool.false_eq_true, ↓reduceIte]
    omega

/-- A node with nothing below it is met in a round. -/
theorem remaining_leaf {c : Cursor} (h : c.firstChild? = none) :
    c.remaining false = c.remaining true + 1 := by
  obtain ⟨⟨r, k, s, ts⟩, path⟩ := c
  cases ts with
  | nil =>
    simp only [remaining, size, sizes, Bool.false_eq_true, ↓reduceIte]
    omega
  | cons t ts => cases h

/-- So is a round that goes to the side. -/
theorem remaining_nextSibling {c c' : Cursor} (h : c.nextSibling? = some c') :
    c.remaining true = c'.remaining false + 1 := by
  obtain ⟨t, path⟩ := c
  cases path with
  | nil => cases h
  | cons d path =>
    obtain ⟨parent, before, after⟩ := d
    cases after with
    | nil => cases h
    | cons t' ts =>
      obtain rfl := Option.some.inj h
      simp only [remaining, sizes, List.foldr_cons, Bool.false_eq_true, ↓reduceIte]
      omega

/-- So is a round that goes up, although the cursor is back at a node where it was before. -/
theorem remaining_parent {c c' : Cursor} (hs : c.nextSibling? = none)
    (h : c.parent? = some c') : c.remaining true = c'.remaining true + 1 := by
  obtain ⟨t, path⟩ := c
  cases path with
  | nil => cases h
  | cons d path =>
    obtain ⟨parent, before, after⟩ := d
    cases after with
    | nil =>
      obtain rfl := Option.some.inj h
      simp only [remaining, sizes, List.foldr_cons, ↓reduceIte]
      omega
    | cons t' ts => cases hs

/-- With a move for each of the rounds that remain, a walk meets what the loop meets. -/
theorem Walks.walk_eq {visited : Bool} {c : Cursor} {stops : List Cursor}
    (h : Walks visited c stops) (more : Nat) :
    c.walk (c.remaining visited + more) visited = stops.map focus := by
  induction h with
  | down h _ ih =>
    rw [remaining_firstChild h, Nat.add_right_comm, walk, h, List.map_cons]
    exact congrArg _ ih
  | leaf h _ ih =>
    rw [remaining_leaf h, Nat.add_right_comm, walk, h, List.map_cons]
    exact congrArg _ ih
  | right h _ ih =>
    rw [remaining_nextSibling h, Nat.add_right_comm, walk, h]
    exact ih
  | up hs h _ ih =>
    rw [remaining_parent hs h, Nat.add_right_comm, walk, hs, h]
    exact ih
  | @done c hs h =>
    cases c.remaining true + more with
    | zero => rfl
    | succ fuel => rw [walk, hs, h, List.map_nil]

/-! ### The nodes that the loop meets -/

/-- The numbers of the children along the steps down. -/
def addressOf (path : List Descent) : List Nat :=
  (path.map fun d => d.before.length).reverse

/-- The address of the node at which the cursor stands, in the tree in which it started. -/
def address (c : Cursor) : List Nat :=
  addressOf c.path

/-- The node at which the cursor stands, with its address. -/
def place (c : Cursor) : List Nat × Tree :=
  (c.address, c.focus)

theorem addressOf_cons (d : Descent) (path : List Descent) :
    addressOf (d :: path) = addressOf path ++ [d.before.length] := by
  simp [addressOf]

mutual
/-- From a node, the loop meets the nodes of its tree and comes back to it. -/
theorem walks_tree (path : List Descent) {later : List Cursor} :
    (t : Tree) → Walks true ⟨t, path⟩ later →
      ∃ stops, Walks false ⟨t, path⟩ (stops ++ later) ∧
        stops.map place = t.addressed.map fun (address, n) => (addressOf path ++ address, n)
  | node r k s [], h => by
    refine ⟨[⟨node r k s [], path⟩], .leaf rfl h, ?_⟩
    simp [addressed, addressedFrom, place, address]
  | node r k s (t :: ts), h => by
    obtain ⟨right, hright, hplaces⟩ := walks_siblings path (node r k s (t :: ts)) [] t ts h
    obtain ⟨below, hbelow, hplaces'⟩ := walks_tree (⟨node r k s (t :: ts), [], ts⟩ :: path) t hright
    refine ⟨⟨node r k s (t :: ts), path⟩ :: (below ++ right), ?_, ?_⟩
    · rw [List.cons_append, List.append_assoc]
      exact .down rfl hbelow
    · simp [addressed, addressedFrom, place, address, hplaces, hplaces', addressOf_cons]

/-- After a node, the loop meets the nodes of the trees to its right and goes up. -/
theorem walks_siblings (path : List Descent) (parent : Tree) (before : List Tree) (t : Tree)
    {later : List Cursor} :
    (ts : List Tree) → Walks true ⟨parent.withChildren (before.reverse ++ t :: ts), path⟩ later →
      ∃ stops, Walks true ⟨t, ⟨parent, before, ts⟩ :: path⟩ (stops ++ later) ∧
        stops.map place = (addressedFrom (before.length + 1) ts).map
          fun (address, n) => (addressOf path ++ address, n)
  | [], h => ⟨[], .up rfl rfl h, rfl⟩
  | t' :: ts, h => by
    have hback : before.reverse ++ t :: t' :: ts = (t :: before).reverse ++ t' :: ts := by simp
    rw [hback] at h
    obtain ⟨right, hright, hplaces⟩ := walks_siblings path parent (t :: before) t' ts h
    obtain ⟨below, hbelow, hplaces'⟩ := walks_tree (⟨parent, t :: before, ts⟩ :: path) t' hright
    refine ⟨below ++ right, ?_, ?_⟩
    · rw [List.append_assoc]
      exact .right rfl hbelow
    · simp [addressedFrom, hplaces, hplaces', addressOf_cons]
end

/-- The loop that starts at a tree ends, and meets its nodes in the order of their addresses. -/
theorem exists_walks (t : Tree) :
    ∃ stops, Walks false ⟨t, []⟩ stops ∧ stops.map place = t.addressed := by
  obtain ⟨stops, hwalks, hplaces⟩ := walks_tree [] t (.done rfl rfl)
  rw [List.append_nil] at hwalks
  refine ⟨stops, hwalks, hplaces.trans ?_⟩
  simp [addressOf]

/-- At its start, the loop has two rounds for each node of the tree. -/
theorem remaining_start (t : Tree) : remaining false ⟨t, []⟩ = 2 * t.size := by
  simp [remaining]

end Cursor

namespace Tree

/-- A walk meets the nodes of the tree in the order of their addresses. -/
theorem walk_eq_addressed (t : Tree) : t.walk = t.addressed.map Prod.snd := by
  obtain ⟨stops, hwalks, hplaces⟩ := Cursor.exists_walks t
  have hwalk := hwalks.walk_eq 0
  rw [Cursor.remaining_start, Nat.add_zero] at hwalk
  rw [walk, hwalk, ← hplaces, List.map_map]
  rfl

/-- **The loop of a cursor is a preorder traversal.** Started at a node `n` of the tree `t`, the
loop ends, after two rounds for each node below `n` and for `n` itself at the latest. The nodes that
it meets are those of the recursive traversal of `n`, in the same order; as positions in `t` they
are exactly those at and below the start, and none is met twice. -/
theorem cursor_loop_traverses_in_preorder (t n : Tree) (start : List Nat)
    (hstart : t.at? start = some n) :
    ∃ stops, (∀ stops', Cursor.Walks false ⟨n, []⟩ stops' ↔ stops' = stops) ∧
      (∀ fuel, 2 * n.size ≤ fuel →
        Cursor.walk fuel false ⟨n, []⟩ = stops.map Cursor.focus) ∧
      n.walk = n.preorder ∧
      stops.map Cursor.focus = n.preorder ∧
      (∀ c ∈ stops, t.at? (start ++ c.address) = some c.focus) ∧
      (∀ address m, t.at? (start ++ address) = some m →
        ∃ c ∈ stops, c.address = address ∧ c.focus = m) ∧
      (stops.map Cursor.address).Pairwise (· < ·) := by
  obtain ⟨stops, hwalks, hplaces⟩ := Cursor.exists_walks n
  have hfocus : stops.map Cursor.focus = n.preorder := by
    rw [← map_snd_addressed, ← hplaces, List.map_map]
    rfl
  have hmem (address : List Nat) (m : Tree) :
      t.at? (start ++ address) = some m ↔ ∃ c ∈ stops, c.address = address ∧ c.focus = m := by
    rw [at?_append hstart, ← mem_addressed, ← hplaces, List.mem_map]
    simp only [Cursor.place, Prod.mk.injEq]
  refine ⟨stops, fun stops' => ⟨fun h => h.unique hwalks, fun h => h ▸ hwalks⟩, ?_, ?_, hfocus,
    fun c hc => (hmem _ _).mpr ⟨c, hc, rfl, rfl⟩, fun address m => (hmem address m).mp, ?_⟩
  · intro fuel hfuel
    obtain ⟨more, rfl⟩ := Nat.exists_eq_add_of_le hfuel
    rw [← Cursor.remaining_start]
    exact hwalks.walk_eq more
  · rw [walk_eq_addressed, map_snd_addressed]
  · have hincreasing := addressed_increasing n
    rw [← hplaces, List.pairwise_map] at hincreasing
    exact List.pairwise_map.mpr hincreasing

/-- The call in `f.g(x);`. -/
def sampleCall : Tree :=
  .node none .call ⟨0, 6⟩
    [.node (some .function) .member ⟨0, 3⟩
      [.node (some .object) .identifier ⟨0, 1⟩ [], .node none .mark ⟨1, 2⟩ [],
        .node (some .property) .propertyIdentifier ⟨2, 3⟩ []],
      .node (some .arguments) .arguments ⟨3, 6⟩
        [.node none .mark ⟨3, 4⟩ [], .node none .identifier ⟨4, 5⟩ [], .node none .mark ⟨5, 6⟩ []]]

/-- The statement `f.g(x);` of a program. -/
def sampleProgram : Tree :=
  .node none .program ⟨0, 7⟩
    [.node none .expressionStatement ⟨0, 7⟩ [sampleCall, .node none .mark ⟨6, 7⟩ []]]

theorem cursor_loop_traverses_in_preorder_call :
    sampleProgram.at? [0, 0] = some sampleCall ∧
      sampleCall.walk.map kind = [.call, .member, .identifier, .mark, .propertyIdentifier,
        .arguments, .mark, .identifier, .mark] := by
  have hstart : sampleProgram.at? [0, 0] = some sampleCall := rfl
  obtain ⟨stops, -, -, hwalk, -⟩ :=
    cursor_loop_traverses_in_preorder sampleProgram sampleCall [0, 0] hstart
  refine ⟨hstart, ?_⟩
  rw [hwalk]
  rfl

end Tree

end UiMarkup.TypeScript
