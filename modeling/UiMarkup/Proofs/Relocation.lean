import UiMarkup.Markup.Forest

/-!
# What stands further on

A text that stands after another one is read at greater offsets and on lower lines. These are the
tokens, places, components, diagnostics and forests of such a text.

* `Place.ofOffset_append_right`: the places in a text that stands after whole lines.
* `Place.ofOffset_append_left`: what stands after a text does not change the places in it.
-/

namespace UiMarkup

namespace Token

/-- The token, `n` characters further on. -/
def shift (n : Nat) (t : Token) : Token :=
  { t with position := t.position + n }

@[simp] theorem kind_shift (n : Nat) (t : Token) : (t.shift n).kind = t.kind := rfl

@[simp] theorem text_shift (n : Nat) (t : Token) : (t.shift n).text = t.text := rfl

@[simp] theorem position_shift (n : Nat) (t : Token) :
    (t.shift n).position = t.position + n := rfl

@[simp] theorem isSymbol_shift (n : Nat) (t : Token) (s : String) :
    (t.shift n).isSymbol s = t.isSymbol s := rfl

@[simp] theorem opensCall_shift (n : Nat) (t : Token) : (t.shift n).opensCall = t.opensCall := rfl

@[simp] theorem isCapitalised_shift (n : Nat) (t : Token) :
    (t.shift n).isCapitalised = t.isCapitalised := rfl

end Token

namespace Place

/-- The place, `n` lines further down. -/
def down (n : Nat) (p : Place) : Place :=
  ⟨p.line + n, p.column⟩

@[simp] theorem down_zero (p : Place) : p.down 0 = p := by
  simp [down]

theorem step_down (n : Nat) (p : Place) (c : Char) : (p.down n).step c = (p.step c).down n := by
  unfold step
  split
  · simp only [down, Place.mk.injEq, and_true]
    omega
  · rfl

theorem foldl_step_down (n : Nat) (p : Place) (s : List Char) :
    s.foldl step (p.down n) = (s.foldl step p).down n := by
  induction s generalizing p with
  | nil => rfl
  | cons c s ih => rw [List.foldl_cons, List.foldl_cons, step_down, ih]

theorem line_foldl_step (p : Place) (s : List Char) :
    (s.foldl step p).line = p.line + s.count '\n' := by
  induction s generalizing p with
  | nil => simp
  | cons c s ih =>
    rw [List.foldl_cons, ih, List.count_cons]
    by_cases hc : c = '\n'
    · simp only [step, hc, if_true, beq_self_eq_true]
      omega
    · simp [step, hc]

/-- After whole lines, one stands at the start of a line. -/
theorem foldl_step_start {s : List Char} (h : ∀ c ∈ s.getLast?, c = '\n') :
    s.foldl step start = start.down (s.count '\n') := by
  rcases List.eq_nil_or_concat s with rfl | ⟨s, c, rfl⟩
  · rfl
  · obtain rfl : c = '\n' := h c (by simp)
    rw [List.concat_eq_append, List.foldl_append, List.count_append]
    simp only [List.foldl_cons, List.foldl_nil, step, if_true, down, line_foldl_step, start,
      List.count_singleton_self, Place.mk.injEq, and_true]
    omega

/-- The places in a text that stands after whole lines. -/
theorem ofOffset_append_right {s : List Char} (h : ∀ c ∈ s.getLast?, c = '\n') (t : List Char)
    (offset : Nat) :
    ofOffset (s ++ t) (offset + s.length) = (ofOffset t offset).down (s.count '\n') := by
  rw [ofOffset, Nat.add_comm, List.take_length_add_append, List.foldl_append,
    foldl_step_start h, foldl_step_down, ofOffset]

theorem ofOffset_append_left (s t : List Char) {offset : Nat} (h : offset ≤ s.length) :
    ofOffset (s ++ t) offset = ofOffset s offset := by
  rw [ofOffset, List.take_append_of_le_length h, ofOffset]

end Place

namespace Component

/-- The component and all below it, `n` lines further down. -/
def down (n : Nat) : Component → Component
  | ⟨name, arguments, components, modifiers, place⟩ =>
    ⟨name, arguments, components.map (down n), modifiers, place.down n⟩

theorem down_zero : (c : Component) → c.down 0 = c
  | ⟨name, arguments, components, modifiers, place⟩ => by
    have hcomponents : components.map (down 0) = components.map id :=
      List.map_congr_left fun c _ => down_zero c
    rw [down, hcomponents, List.map_id, Place.down_zero]

end Component

namespace Diagnostic

/-- The diagnostic, `n` characters and `lines` lines further on. -/
def moved (n lines : Nat) (d : Diagnostic) : Diagnostic :=
  ⟨d.cause, d.position + n, d.place.down lines⟩

theorem moved_zero (d : Diagnostic) : d.moved 0 0 = d := by
  simp [moved]

end Diagnostic

/-- What an attempt came to, `n` characters and `lines` lines further on. -/
def Outcome.moved (n lines : Nat) : Outcome → Outcome
  | node c => node (c.down lines)
  | dropped d => dropped (d.moved n lines)

/-- The attempt, `k` tokens, `n` characters and `lines` lines further on. -/
def Attempt.moved (k n lines : Nat) (a : Attempt) : Attempt :=
  ⟨a.start + k, a.stop + k, a.outcome.moved n lines⟩

namespace Forest

/-- What is read in one text and then in another one. -/
def append (f g : Forest) : Forest :=
  ⟨f.nodes ++ g.nodes, f.diagnostics ++ g.diagnostics⟩

instance : Append Forest := ⟨append⟩

/-- The forest, `n` characters and `lines` lines further on. -/
def moved (n lines : Nat) (f : Forest) : Forest :=
  ⟨f.nodes.map (Component.down lines), f.diagnostics.map (Diagnostic.moved n lines)⟩

theorem moved_zero (f : Forest) : f.moved 0 0 = f := by
  rw [moved, funext Component.down_zero, funext Diagnostic.moved_zero, List.map_id', List.map_id']

end Forest

namespace Survey

variable (k n lines : Nat) (attempts : List Attempt) (halt : Option Halt)

theorem nodes_moved :
    nodes ⟨attempts.map (Attempt.moved k n lines), halt⟩ =
      (nodes ⟨attempts, halt⟩).map (Component.down lines) := by
  simp only [nodes, List.filterMap_map, List.map_filterMap]
  congr 1
  funext a
  cases h : a.outcome <;> simp [Attempt.moved, Outcome.moved, h]

theorem diagnostics_moved :
    diagnostics ⟨attempts.map (Attempt.moved k n lines), halt⟩ =
      (diagnostics ⟨attempts, halt⟩).map (Diagnostic.moved n lines) := by
  simp only [diagnostics, List.filterMap_map, List.map_filterMap]
  congr 1
  funext a
  cases h : a.outcome <;> simp [Attempt.moved, Outcome.moved, h]

end Survey

end UiMarkup
