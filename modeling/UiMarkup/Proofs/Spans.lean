import UiMarkup.Proofs.TreeWalk
import UiMarkup.TypeScript.Document

/-!
# Spans of nested nodes

In the tree of a text, the children of a node stand one after the other within it. So a node lies
within each node above it, and nodes of which neither is above the other do not overlap.

* `Tree.Nested`: every node of the tree has its children in order within it.
* `Tree.Nested.within`: a node lies within the nodes above it.
* `Tree.Nested.apart_or_below`: of two nodes, the later one comes after the other, or is below it.
* `Text.charsWithin_lt_of_slice_ne_nil`: where some text lies between two offsets, so does a
  character.
-/

namespace UiMarkup

/-! ## Offsets -/

namespace Text

theorem charsWithin_mono {a b : Nat} (h : a ≤ b) (s : List Char) :
    charsWithin a s ≤ charsWithin b s := by
  induction s generalizing a b with
  | nil => exact Nat.le_refl _
  | cons c s ih =>
    simp only [charsWithin]
    split
    · rw [if_pos (by omega)]
      have := ih (show a - c.utf8Size ≤ b - c.utf8Size by omega)
      omega
    · exact Nat.zero_le _

/-- Where some text lies between two byte offsets, so does a character. -/
theorem charsWithin_lt_of_slice_ne_nil {s : List Char} {start stop : Nat}
    (h : slice s start stop ≠ []) : charsWithin start s < charsWithin stop s := by
  rw [slice] at h
  cases hrest : s.drop (charsWithin start s) with
  | nil => simp [hrest] at h
  | cons c rest =>
    have hfits : c.utf8Size ≤ stop - start := by
      by_contra hlong
      simp [hrest, charsWithin, hlong] at h
    have hstart := byteLength_take_charsWithin_le start s
    have hstop : byteLength (s.take (charsWithin start s)) + c.utf8Size ≤ stop := by
      have := c.utf8Size_pos
      omega
    have hlength : (s.take (charsWithin start s)).length = charsWithin start s := by
      have : 0 < (s.drop (charsWithin start s)).length := by simp [hrest]
      rw [List.length_drop] at this
      exact List.length_take_of_le (by omega)
    have hmore := charsWithin_append (s.take (charsWithin start s)) (s.drop (charsWithin start s))
      c.utf8Size
    rw [List.take_append_drop, hlength, hrest] at hmore
    calc charsWithin start s
        < charsWithin start s + charsWithin c.utf8Size (c :: rest) := by simp [charsWithin]
      _ = charsWithin (byteLength (s.take (charsWithin start s)) + c.utf8Size) s := hmore.symm
      _ ≤ charsWithin stop s := charsWithin_mono hstop s

end Text

namespace TypeScript

namespace Tree

/-- The children of the node stand one after the other within it. -/
structure InOrder (n : Tree) : Prop where
  start_le_stop : n.span.start ≤ n.span.stop
  within : ∀ c ∈ n.children, n.span.start ≤ c.span.start ∧ c.span.stop ≤ n.span.stop
  apart : n.children.Pairwise fun c c' => c.span.stop ≤ c'.span.start

/-- Every node of the tree has its children in order within it. -/
def Nested (t : Tree) : Prop :=
  ∀ address n, t.at? address = some n → n.InOrder

theorem nested_iff {t : Tree} : t.Nested ↔ ∀ n ∈ t.addressed, n.2.InOrder :=
  ⟨fun h n hn => h n.1 n.2 ((mem_addressed t).mp hn),
    fun h address n hn => h (address, n) ((mem_addressed t).mpr hn)⟩

instance (n : Tree) : Decidable n.InOrder :=
  decidable_of_iff (n.span.start ≤ n.span.stop ∧
      (∀ c ∈ n.children, n.span.start ≤ c.span.start ∧ c.span.stop ≤ n.span.stop) ∧
      n.children.Pairwise fun c c' => c.span.stop ≤ c'.span.start)
    ⟨fun h => ⟨h.1, h.2.1, h.2.2⟩, fun h => ⟨h.1, h.2, h.3⟩⟩

instance (t : Tree) : Decidable t.Nested :=
  decidable_of_iff _ nested_iff.symm

namespace Nested

theorem inOrder {t : Tree} (h : t.Nested) : t.InOrder :=
  h [] t rfl

theorem below {t n : Tree} (h : t.Nested) {a : List Nat} (hn : t.at? a = some n) : n.Nested :=
  fun b m hm => h (a ++ b) m (by rw [at?_append hn, hm])

theorem child {t c : Tree} (h : t.Nested) {i : Nat} (hc : t.children[i]? = some c) : c.Nested :=
  h.below (a := [i]) (at?_cons_eq_some.mpr ⟨c, hc, rfl⟩)

/-- A node lies within the nodes above it. -/
theorem within {t n : Tree} (h : t.Nested) {address : List Nat} (hn : t.at? address = some n) :
    t.span.start ≤ n.span.start ∧ n.span.stop ≤ t.span.stop := by
  induction address generalizing t with
  | nil =>
    obtain rfl := Option.some.inj hn
    exact ⟨Nat.le_refl _, Nat.le_refl _⟩
  | cons i address ih =>
    obtain ⟨c, hc, hn⟩ := at?_cons_eq_some.mp hn
    have houter := h.inOrder.within c (List.mem_of_getElem? hc)
    have hinner := ih (h.child hc) hn
    exact ⟨Nat.le_trans houter.1 hinner.1, Nat.le_trans hinner.2 houter.2⟩

/-- A node stops before any node starts that is below a later sibling. -/
theorem apart {t m n : Tree} (h : t.Nested) {i j : Nat} {a b : List Nat} (hij : i < j)
    (hm : t.at? (i :: a) = some m) (hn : t.at? (j :: b) = some n) :
    m.span.stop ≤ n.span.start := by
  obtain ⟨c, hc, hm⟩ := at?_cons_eq_some.mp hm
  obtain ⟨c', hc', hn⟩ := at?_cons_eq_some.mp hn
  obtain ⟨hi, hget⟩ := List.getElem?_eq_some_iff.mp hc
  obtain ⟨hj, hget'⟩ := List.getElem?_eq_some_iff.mp hc'
  have hsiblings := List.pairwise_iff_getElem.mp h.inOrder.apart i j hi hj hij
  rw [hget, hget'] at hsiblings
  calc m.span.stop ≤ c.span.stop := ((h.child hc).within hm).2
    _ ≤ c'.span.start := hsiblings
    _ ≤ n.span.start := ((h.child hc').within hn).1

/-- Of two nodes, the later one comes after the other, or is below it. -/
theorem apart_or_below {t m n : Tree} (h : t.Nested) {a b : List Nat} (hab : a < b)
    (hm : t.at? a = some m) (hn : t.at? b = some n) :
    m.span.stop ≤ n.span.start ∨ ∃ i rest, m.at? (i :: rest) = some n := by
  induction a generalizing t b with
  | nil =>
    obtain rfl := Option.some.inj hm
    cases b with
    | nil => exact absurd hab (List.lt_irrefl _)
    | cons i rest => exact .inr ⟨i, rest, hn⟩
  | cons i a ih =>
    cases b with
    | nil => exact absurd hab (List.not_lt_nil _)
    | cons j b =>
      rcases List.cons_lt_cons_iff.mp hab with hij | ⟨rfl, hrest⟩
      · exact .inl (h.apart hij hm hn)
      · obtain ⟨c, hc, hm⟩ := at?_cons_eq_some.mp hm
        obtain ⟨c', hc', hn⟩ := at?_cons_eq_some.mp hn
        obtain rfl := Option.some.inj (hc.symm.trans hc')
        exact ih (h.child hc) hrest hm hn

end Nested

end Tree

end TypeScript

end UiMarkup
