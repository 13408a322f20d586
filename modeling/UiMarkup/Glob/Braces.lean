import UiMarkup.Text.Split

/-!
# Brace groups

A group `{a,b}` in a pattern stands for each of its alternatives. Groups are expanded one at a time,
the leftmost group that contains no other first, until none is left.
-/

namespace UiMarkup.Glob

/-- `c` is a brace. -/
def isBrace (c : Char) : Bool :=
  c == '{' || c == '}'

/-- The first group without braces inside: the text before it, its body and the text after it. -/
def firstGroup? : List Char → Option (List Char × List Char × List Char)
  | [] => none
  | c :: s =>
    let later := (firstGroup? s).map fun (head, body, tail) => (c :: head, body, tail)
    if c = '{' then
      match s.dropWhile (!isBrace ·) with
      | '}' :: tail => some ([], s.takeWhile (!isBrace ·), tail)
      | _ => later
    else later

/-- The first group is a group, and the text around it is unchanged. -/
theorem firstGroup?_eq_some {s head body tail : List Char}
    (h : firstGroup? s = some (head, body, tail)) :
    s = head ++ '{' :: body ++ '}' :: tail ∧ ∀ c ∈ body, isBrace c = false := by
  induction s generalizing head with
  | nil => simp [firstGroup?] at h
  | cons c s ih =>
    have later : ∀ {head}, (firstGroup? s).map (fun (head, body, tail) => (c :: head, body, tail)) =
        some (head, body, tail) →
        c :: s = head ++ '{' :: body ++ '}' :: tail ∧ ∀ c ∈ body, isBrace c = false := by
      intro head h
      obtain ⟨⟨head', body', tail'⟩, hg, he⟩ := Option.map_eq_some_iff.mp h
      simp only [Prod.mk.injEq] at he
      obtain ⟨rfl, rfl, rfl⟩ := he
      have := ih hg
      exact ⟨by simp [this.1], this.2⟩
    unfold firstGroup? at h
    dsimp only at h
    split at h
    · next hc =>
      split at h
      · next tail' hd =>
        simp only [Option.some.injEq, Prod.mk.injEq] at h
        obtain ⟨rfl, rfl, rfl⟩ := h
        refine ⟨?_, fun c hm => ?_⟩
        · conv => lhs; rw [← List.takeWhile_append_dropWhile (p := (!isBrace ·)) (l := s), hd, hc]
          simp
        · simpa using List.all_eq_true.mp List.all_takeWhile c hm
      · exact later h
    · exact later h

/-- How many calls of the expansion may nest. A function that calls itself can nest about a thousand
calls; some are left to whatever asks for the expansion. -/
def maxCalls : Nat := 980

/-- The patterns that a pattern with brace groups stands for. A call replaces one group, and calls
itself for the others; there is no answer if more calls have to nest than may. -/
def expandBraces : (calls : Nat) → (pattern : List Char) → Option (List (List Char))
  | 0, _ => none
  | calls + 1, pattern =>
    match firstGroup? pattern with
    | none => some [pattern]
    | some (head, body, tail) =>
      let expand (alternative : List Char) := expandBraces calls (head ++ alternative ++ tail)
      ((Text.splitOn ',' body).mapM expand).map List.flatten

end UiMarkup.Glob
