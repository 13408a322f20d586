import UiMarkup.Proofs.Places

/-!
# Reading makes progress

Reading never goes back and never passes the end token. Whatever is read takes at least one token,
and so does every iteration of a loop over tokens that does not leave the loop; so all loops end.

* `EndsWithin ts start r`: where reading from the index `start` stands when it has come to `r`.
* `Turn`, `Leaves turn s r`: an iteration of a loop; the loop is left after finitely many of them.
* `argumentTurn`, `modifierTurn`, `blockTurn`, `topTurn`: the iterations of the four loops. None of
  them checks that it takes a token.
* `parsing_makes_progress`: what this says about all calls and all loops.
-/

namespace UiMarkup.Parser

/-! ## Indices -/

/-- The tokens at which reading stands after a step to the right. It stays at an end token. -/
def advance : List Token → List Token
  | [] => []
  | t :: ts => if t.kind == .eof then t :: ts else ts

theorem takes_advance (ts : List Token) : Takes ts (advance ts) := by
  cases ts with
  | nil => exact .refl []
  | cons t ts =>
    rw [advance]
    split
    · exact .refl _
    · next h => exact takes_cons (by simpa using h) ts

theorem length_advance_lt {ts : List Token} (hne : ts ≠ []) (hk : (current ts).kind ≠ .eof) :
    (advance ts).length < ts.length := by
  obtain ⟨t, ts, rfl⟩ := List.exists_cons_of_ne_nil hne
  rw [current] at hk
  rw [advance, if_neg (by simpa using hk)]
  exact Nat.lt_succ_self _

theorem Takes.length_le {ts rest : List Token} (h : Takes ts rest) : rest.length ≤ ts.length := by
  obtain ⟨used, rfl, -⟩ := h
  simp

/-- Where reading that started at the index `start` of `ts` stands when it has come to `r`. -/
def EndsWithin {α : Type} (ts : List Token) (start : Nat) : Step α → Prop
  | .ok (_, rest) => ∃ stop, start < stop ∧ stop < ts.length ∧ rest = ts.drop stop
  | .error (.failure f) => ∃ stop, start ≤ stop ∧ stop < ts.length ∧ f.rest = ts.drop stop
  -- reading stands right after the integer
  | .error (.oversizedInteger digits) => ∃ stop, start < stop ∧ stop < ts.length ∧
      ∃ t, ts[stop - 1]? = some t ∧ Oversized digits t
  -- reading stands at the component that is nested too deeply
  | .error (.tooDeep position) => ∃ stop, start ≤ stop ∧ stop < ts.length ∧
      ∃ t, ts[stop]? = some t ∧ t.position = position

section
variable {ts : List Token} {start : Nat}

/-- What reading within a token list takes leads to an index before the end of the list. -/
theorem exists_index {rest : List Token} (hended : Ended ts) (hstart : start < ts.length)
    (h : Takes (ts.drop start) rest) :
    ∃ stop, start ≤ stop ∧ stop < ts.length ∧ rest = ts.drop stop := by
  have hne := ((hended.drop hstart).takes h).ne_nil
  obtain ⟨used, heq, -⟩ := h
  have hrest : rest = ts.drop (start + used.length) := by
    rw [← List.drop_drop, heq, List.drop_left]
  refine ⟨start + used.length, Nat.le_add_right _ _, ?_, hrest⟩
  by_contra hge
  exact hne (hrest.trans (List.drop_eq_nil_of_le (Nat.le_of_not_lt hge)))

/-- If fewer tokens remain, the index has grown. -/
theorem exists_index_lt {rest : List Token} (hended : Ended ts) (hstart : start < ts.length)
    (h : Takes (ts.drop start) rest) (hlt : rest.length < (ts.drop start).length) :
    ∃ stop, start < stop ∧ stop < ts.length ∧ rest = ts.drop stop := by
  obtain ⟨stop, hle, hstop, rfl⟩ := exists_index hended hstart h
  simp only [List.length_drop] at hlt
  exact ⟨stop, by omega, hstop, rfl⟩

/-- How reading ends, by indices. -/
theorem endsWithin {α : Type} {r : Step α} (hended : Ended ts) (hstart : start < ts.length)
    (hends : Ends (ts.drop start) r)
    (htaken : ∀ x rest, r = .ok (x, rest) → rest.length < (ts.drop start).length)
    (hdeep : ∀ position, r = .error (.tooDeep position) → DeepAt (ts.drop start) position) :
    EndsWithin ts start r := by
  cases hends with
  | ok h => exact exists_index_lt hended hstart h (htaken _ _ rfl)
  | failure h _ => exact exists_index hended hstart h
  | unclosed h hk _ => exact exists_index hended hstart (h.trans (takes_cons (by simp [hk]) _))
  | tooDeep position =>
    obtain ⟨rest, htake, hposition⟩ := hdeep position rfl
    obtain ⟨stop, hle, hstop, rfl⟩ := exists_index hended hstart htake
    rw [List.drop_eq_getElem_cons hstop] at hposition
    exact ⟨stop, hle, hstop, _, List.getElem?_eq_getElem hstop, hposition⟩
  | @oversized digits t rest h ht =>
    have hne := ((hended.drop hstart).takes (h.trans (takes_cons (by simp [ht.1]) rest))).ne_nil
    obtain ⟨i, hle, hi, heq⟩ := exists_index hended hstart h
    rw [List.drop_eq_getElem_cons hi] at heq
    obtain ⟨rfl, rfl⟩ := List.cons.inj heq
    have hlast : i + 1 < ts.length := by
      by_contra hge
      exact hne (List.drop_eq_nil_of_le (Nat.le_of_not_lt hge))
    exact ⟨i + 1, Nat.lt_succ_of_le hle, hlast, _, List.getElem?_eq_getElem hi, ht⟩

end

/-! ## Calls -/

theorem ends_component (ctx : Context) (depth : Nat) (ts : List Token) :
    Ends ts (component ctx depth ts) := by
  cases hi : identifier .expectedComponentName ts with
  | ok x =>
    obtain ⟨rfl, hk⟩ := identifier_eq_ok hi
    exact (ends_call ctx depth hk _).mono (takes_cons (by simp [hk]) _)
  | error stop =>
    cases depth with
    | zero => exact .tooDeep _
    | succ depth =>
      rw [component, hi]
      exact (ends_identifier _ ts).of_error hi

/-- A component takes at least its name. -/
theorem length_component_lt {ctx : Context} {depth : Nat} {ts rest : List Token} {c : Component}
    (h : component ctx depth ts = .ok (c, rest)) : rest.length < ts.length := by
  obtain ⟨used, _, rfl, hcomp, -⟩ := component_sound ctx depth h
  obtain ⟨name, next, tail, rfl, -, -⟩ := component_head hcomp
  simp only [List.length_append, List.length_cons]
  omega

/-- A block takes at least its closing brace. -/
theorem length_block_lt {entry : List Token → Step Component} {owner : String}
    {ts rest : List Token} {cs : List Component} (h : block entry owner ts = .ok (cs, rest)) :
    rest.length < ts.length := by
  fun_induction block entry owner ts generalizing cs rest with
  | case1 ts rest' hr =>
    cases h
    exact length_eat?_lt hr
  | case5 ts hr hk hs c rest' hc hlt cs' rest'' hb ih =>
    cases h
    exact (ih hb).trans hlt
  | case2 | case3 | case4 | case6 | case7 => cases h

theorem length_modifier_advance_lt {p : Profile} {ts rest : List Token} {m : Modifier}
    (h : modifier p (advance ts) = .ok (m, rest)) : rest.length < ts.length := by
  exact Nat.lt_of_lt_of_le (length_modifier_lt h) (takes_advance ts).length_le

/-- Nesting is bounded by the tokens: a depth above their number is never used up. -/
theorem shallow_block {entry : List Token → Step Component} {owner : String} {ts : List Token}
    (hentry : ∀ us, us.length ≤ ts.length → Shallow (entry us)) :
    Shallow (block entry owner ts) := by
  fun_induction block entry owner ts with
  | case1 | case5 => exact shallow_ok _
  | case2 | case6 | case7 => exact shallow_fail _ _
  | case3 ts hr hk hs stop hc => exact (hentry ts (Nat.le_refl _)).of_error hc
  | case4 ts hr hk hs c rest hc hlt stop hb ih =>
    exact (ih fun us hle => hentry us (hle.trans (Nat.le_of_lt hlt))).of_error hb

theorem shallow_component (ctx : Context) {depth : Nat} {ts : List Token}
    (h : ts.length < depth) : Shallow (component ctx depth ts) := by
  induction depth generalizing ts with
  | zero => omega
  | succ depth ih =>
    rw [component]
    split
    · next stop hi => exact (shallow_identifier _ ts).of_error hi
    next name rest hi =>
    have hname := length_identifier_lt hi
    split
    · next stop ha => exact (shallow_argumentPart _ rest).of_error ha
    next args rest' ha =>
    have hargs := ((ends_argumentPart _ rest).takes ha).length_le
    split
    · next stop hb =>
      unfold blockPart at hb
      split at hb
      · cases hb
      next inner hl =>
      have hopen := length_eat?_lt hl
      split at hb
      · next stop' hblock =>
        cases hb
        exact (shallow_block fun us hle => ih (by omega)).of_error hblock
      · cases hb
    next inner rest'' hb =>
    split
    · exact shallow_fail _ _
    split
    · next stop hm => exact (shallow_modifiers _ rest'').of_error hm
    · exact shallow_ok _

/-! ## Loops -/

/-- What an iteration of a loop comes to: a state from which the loop goes on, or its result. -/
inductive Turn (σ β : Type) where
  | again (s : σ)
  | leave (r : β)

/-- From the state `s`, the loop with the iterations `turn` is left with the result `r` after
finitely many of them. -/
inductive Leaves {σ β : Type} (turn : σ → Turn σ β) : σ → β → Prop where
  | now {s : σ} {r : β} (h : turn s = .leave r) : Leaves turn s r
  | later {s s' : σ} {r : β} (h : turn s = .again s') (hl : Leaves turn s' r) : Leaves turn s r

/-- Values that a loop has collected, put before those that are still read. -/
def collected {α : Type} (earlier : List α) : Step (List α) → Step (List α)
  | .ok (later, rest) => .ok (earlier ++ later, rest)
  | .error stop => .error stop

/-- The loop over arguments: the arguments that were read, and the tokens that remain. -/
def argumentTurn (p : Profile) :
    List Expr × List Token → Turn (List Expr × List Token) (Step (List Expr))
  | (es, ts) =>
    match argument p ts with
    | .error stop => .leave (.error stop)
    | .ok (e, rest) =>
      match eat? "," rest with
      | some rest =>
        match eat? ")" rest with
        | some rest => .leave (.ok (es ++ [e], rest))
        | none => .again (es ++ [e], rest)
      | none =>
        match eat? ")" rest with
        | some rest => .leave (.ok (es ++ [e], rest))
        | none =>
          if (current rest).kind == .eof then .leave (fail .unclosedArguments rest)
          else .leave (fail (.expectedSeparator (current rest).text) rest)

/-- The loop over modifiers. -/
def modifierTurn (p : Profile) :
    List Modifier × List Token → Turn (List Modifier × List Token) (Step (List Modifier))
  | (ms, ts) =>
    if (current ts).isSymbol "." then
      match modifier p (advance ts) with
      | .error stop => .leave (.error stop)
      | .ok (m, rest) => .again (ms ++ [m], rest)
    else .leave (.ok (ms, ts))

/-- The loop over the entries of a block. -/
def blockTurn (ctx : Context) (depth : Nat) (owner : String) :
    List Component × List Token → Turn (List Component × List Token) (Step (List Component))
  | (cs, ts) =>
    match eat? "\x7d" ts with
    | some rest => .leave (.ok (cs, rest))
    | none =>
      if (current ts).kind == .eof then .leave (fail (.unclosedBlock owner) ts)
      else if startsInBlock ts then
        match component ctx depth ts with
        | .error stop => .leave (.error stop)
        | .ok (c, rest) => .again (cs ++ [c], rest)
      else .leave (fail (.expectedComponent (current ts).text) ts)

/-- Where the loop over a whole source stands. -/
structure TopState where
  /-- The attempts made so far. -/
  attempts : List Attempt
  /-- The index of the current token. -/
  index : Nat
  /-- The token before it. -/
  previous : Option Token
  /-- The tokens that remain. -/
  tokens : List Token

/-- The state after an attempt that stood at `rest`. -/
def TopState.after (s : TopState) (rest : List Token) (outcome : Outcome) : TopState :=
  let stop := s.index + (s.tokens.length - rest.length)
  ⟨s.attempts ++ [⟨s.index, stop, outcome⟩], stop, lastBefore s.tokens rest, rest⟩

/-- The loop over a whole source. Reading goes on after a component that was read, and at least one
token after the start of one that was not. -/
def topTurn (ctx : Context) (s : TopState) : Turn TopState Survey :=
  if (current s.tokens).kind == .eof then .leave ⟨s.attempts, none⟩
  else if startsAtTop ctx.profile s.previous s.tokens then
    match component ctx maxDepth s.tokens with
    | .ok (c, rest) => .again (s.after rest (.node c))
    | .error (.failure f) =>
      .again (s.after (resume s.tokens f.rest)
        (.dropped ⟨f.cause, f.position, ctx.locate f.position⟩))
    | .error (.tooDeep position) => .leave ⟨s.attempts, some (.tooDeep position)⟩
    | .error (.oversizedInteger digits) => .leave ⟨s.attempts, some (.oversizedInteger digits)⟩
  else .again ⟨s.attempts, s.index + 1, some (current s.tokens), advance s.tokens⟩

/-! ### The loops end with what reading comes to -/

theorem leaves_arguments (p : Profile) (es : List Expr) (ts : List Token) :
    Leaves (argumentTurn p) (es, ts) (collected es (arguments p ts)) := by
  fun_induction arguments p ts generalizing es with
  | case1 ts stop ha => exact .now (by simp only [argumentTurn, ha, collected])
  | case2 ts e rest ha rest' hc rest'' hp =>
    exact .now (by simp only [argumentTurn, ha, hc, hp, collected])
  | case3 ts e rest ha rest' hc hp stop hr ih =>
    have hrest := ih (es ++ [e])
    rw [hr] at hrest
    exact .later (by simp only [argumentTurn, ha, hc, hp]) hrest
  | case4 ts e rest ha rest' hc hp es' rest'' hr ih =>
    have hrest := ih (es ++ [e])
    rw [hr, collected, List.append_assoc] at hrest
    exact .later (by simp only [argumentTurn, ha, hc, hp]) hrest
  | case5 ts e rest ha hc rest' hp =>
    exact .now (by simp only [argumentTurn, ha, hc, hp, collected])
  | case6 ts e rest ha hc hp hk =>
    exact .now (by simp only [argumentTurn, ha, hc, hp, hk, if_true, fail, collected])
  | case7 ts e rest ha hc hp hk =>
    exact .now (by simp only [argumentTurn, ha, hc, hp, hk, fail, collected]; rfl)

theorem advance_of_eat? {symbol : String} {ts rest : List Token} (h : eat? symbol ts = some rest) :
    (current ts).isSymbol symbol ∧ advance ts = rest := by
  obtain ⟨t, rfl, ht⟩ := eat?_eq_some h
  refine ⟨ht, ?_⟩
  rw [advance, if_neg (by simp [(Token.isSymbol_iff.mp ht).1])]

theorem leaves_modifiers (p : Profile) (ms : List Modifier) (ts : List Token) :
    Leaves (modifierTurn p) (ms, ts) (collected ms (modifiers p ts)) := by
  fun_induction modifiers p ts generalizing ms with
  | case1 ts hd =>
    refine .now ?_
    rw [modifierTurn, if_neg (current_of_eat?_eq_none hd), collected, List.append_nil]
  | case2 ts rest hd stop hm =>
    obtain ⟨hdot, rfl⟩ := advance_of_eat? hd
    exact .now (by simp only [modifierTurn, if_pos hdot, hm, collected])
  | case3 ts rest hd m rest' hm stop hr ih =>
    obtain ⟨hdot, rfl⟩ := advance_of_eat? hd
    have hrest := ih (ms ++ [m])
    rw [hr] at hrest
    exact .later (by simp only [modifierTurn, if_pos hdot, hm]) hrest
  | case4 ts rest hd m rest' hm ms' rest'' hr ih =>
    obtain ⟨hdot, rfl⟩ := advance_of_eat? hd
    have hrest := ih (ms ++ [m])
    rw [hr, collected, List.append_assoc] at hrest
    exact .later (by simp only [modifierTurn, if_pos hdot, hm]) hrest

/-- Every entry of a block takes a token, so the loop over entries needs no check of that. -/
theorem leaves_block (ctx : Context) (depth : Nat) (owner : String) (cs : List Component)
    (ts : List Token) :
    Leaves (blockTurn ctx depth owner) (cs, ts)
      (collected cs (block (component ctx depth) owner ts)) := by
  fun_induction block (component ctx depth) owner ts generalizing cs with
  | case1 ts rest hr =>
    exact .now (by simp only [blockTurn, hr, collected, List.append_nil])
  | case2 ts hr hk =>
    exact .now (by simp only [blockTurn, hr, hk, if_true, fail, collected])
  | case3 ts hr hk hs stop hc =>
    exact .now (by simp only [blockTurn, hr, if_neg hk, if_pos hs, hc, collected])
  | case4 ts hr hk hs c rest hc hlt stop hb ih =>
    have hrest := ih (cs ++ [c])
    rw [hb] at hrest
    exact .later (by simp only [blockTurn, hr, if_neg hk, if_pos hs, hc]) hrest
  | case5 ts hr hk hs c rest hc hlt cs' rest' hb ih =>
    have hrest := ih (cs ++ [c])
    rw [hb, collected, List.append_assoc] at hrest
    exact .later (by simp only [blockTurn, hr, if_neg hk, if_pos hs, hc]) hrest
  | case6 ts hr hk hs c rest hc hlt => exact absurd (length_component_lt hc) hlt
  | case7 ts hr hk hs =>
    exact .now (by simp only [blockTurn, hr, if_neg hk, if_neg hs, fail, collected])

theorem leaves_surveyed {ctx : Context} {index : Nat} {previous : Option Token} {ts : List Token}
    {s : Survey} (h : Surveyed ctx index previous ts s) (earlier : List Attempt) :
    Leaves (topTurn ctx) ⟨earlier, index, previous, ts⟩ ⟨earlier ++ s.attempts, s.halt⟩ := by
  induction h generalizing earlier with
  | done h =>
    exact .now (by rw [topTurn, if_pos (by simp [h]), List.append_nil])
  | @skip index previous t ts s hk hs _ ih =>
    have hadvance : advance (t :: ts) = ts := by rw [advance, if_neg (by simpa using hk)]
    refine .later ?_ (ih earlier)
    rw [topTurn, if_neg (by simpa [current] using hk), if_neg (by simp [hs]), hadvance]
    rfl
  | @attempt index previous used rest outcome s hs hne hy _ ih =>
    obtain ⟨name, tail, heq, hk⟩ := kind_of_startsAtTop hs
    have hcurrent : ¬ (current (used ++ rest)).kind == .eof := by simp [heq, current, hk]
    have hafter (o : Outcome) : TopState.after ⟨earlier, index, previous, used ++ rest⟩ rest o =
        ⟨earlier ++ [⟨index, index + used.length, o⟩], index + used.length, used.getLast?, rest⟩ := by
      simp only [TopState.after, lastBefore_append hne, List.length_append, Nat.add_sub_cancel]
    have hrest := ih (earlier ++ [⟨index, index + used.length, outcome⟩])
    rw [List.append_assoc] at hrest
    refine .later ?_ hrest
    rw [topTurn, if_neg hcurrent, if_pos hs, ← hafter]
    cases hy with
    | node h => simp only [h]
    | dropped h => simp only [h, resume_append hne]
  | halted hs h =>
    obtain ⟨name, tail, rfl, hk⟩ := kind_of_startsAtTop hs
    refine .now ?_
    rw [topTurn, if_neg (by simp [current, hk]), if_pos hs, List.append_nil]
    cases h with
    | tooDeep h => simp only [h]
    | oversizedInteger h => simp only [h]

/-! ### The iterations make progress -/

/-- An iteration that starts at an index of `ts` and does not leave the loop ends at a later one. -/
def Advances {σ β : Type} (ts : List Token) (tokens : σ → List Token) (turn : σ → Turn σ β) : Prop :=
  ∀ s s' start, start < ts.length → tokens s = ts.drop start → turn s = .again s' →
    ∃ stop, start < stop ∧ stop < ts.length ∧ tokens s' = ts.drop stop

theorem advances_argumentTurn {ts : List Token} (hended : Ended ts) (p : Profile) :
    Advances ts Prod.snd (argumentTurn p) := by
  rintro ⟨es, us⟩ ⟨es', rest⟩ start hstart rfl h
  rw [argumentTurn] at h
  split at h
  · cases h
  next e rest₁ ha =>
  split at h
  · next rest₂ hc =>
    split at h
    · cases h
    cases h
    refine exists_index_lt hended hstart ?_ ((length_eat?_lt hc).trans (length_argument_lt ha))
    exact ((ends_argument p _).takes ha).trans (takes_eat? hc)
  · split at h
    · cases h
    split at h <;> cases h

theorem advances_modifierTurn {ts : List Token} (hended : Ended ts) (p : Profile) :
    Advances ts Prod.snd (modifierTurn p) := by
  rintro ⟨ms, us⟩ ⟨ms', rest⟩ start hstart rfl h
  rw [modifierTurn] at h
  split at h
  · split at h
    · cases h
    next m rest' hm =>
    cases h
    refine exists_index_lt hended hstart ?_ (length_modifier_advance_lt hm)
    exact (takes_advance _).trans ((ends_modifier p _).takes hm)
  · cases h

theorem advances_blockTurn {ts : List Token} (hended : Ended ts) (ctx : Context) (depth : Nat)
    (owner : String) : Advances ts Prod.snd (blockTurn ctx depth owner) := by
  rintro ⟨cs, us⟩ ⟨cs', rest⟩ start hstart rfl h
  rw [blockTurn] at h
  split at h
  · cases h
  split at h
  · cases h
  split at h
  · split at h
    · cases h
    next c rest' hc =>
    cases h
    exact exists_index_lt hended hstart ((ends_component ctx depth _).takes hc)
      (length_component_lt hc)
  · cases h

/-- An attempt that starts a component takes at least its name. -/
theorem Yields.length_lt {ctx : Context} {p : Profile} {previous : Option Token}
    {ts rest : List Token} {outcome : Outcome} (h : Yields ctx ts outcome rest)
    (hs : startsAtTop p previous ts) : rest.length < ts.length := by
  obtain ⟨name, tail, rfl, hk⟩ := kind_of_startsAtTop hs
  exact Nat.lt_succ_of_le (h.takes hk).length_le

theorem advances_topTurn {ts : List Token} (hended : Ended ts) (ctx : Context) :
    Advances ts TopState.tokens (topTurn ctx) := by
  rintro ⟨attempts, index, previous, us⟩ s' start hstart rfl h
  rw [topTurn] at h
  split at h
  · cases h
  next hk =>
  split at h
  · next hs =>
    have hattempt {outcome : Outcome} {rest : List Token}
        (hy : Yields ctx (ts.drop start) outcome rest) :
        ∃ stop, start < stop ∧ stop < ts.length ∧ rest = ts.drop stop :=
      exists_index_lt hended hstart (hy.takes_of_startsAtTop hs) (hy.length_lt hs)
    split at h
    · next c rest hc =>
      cases h
      exact hattempt (.node hc)
    · next f hf =>
      cases h
      have hy := Yields.dropped hf
      simp only [TopState.after, resume, if_pos (hy.length_lt hs)]
      exact hattempt hy
    · cases h
    · cases h
  · cases h
    have hne := (hended.drop hstart).ne_nil
    exact exists_index_lt hended hstart (takes_advance _)
      (length_advance_lt hne (by simpa using hk))

/-! ## All calls and all loops -/

/-- The calls that start at the index `start`. -/
structure CallsProgress (ctx : Context) (depth : Nat) (owner : String) (ts : List Token)
    (start : Nat) : Prop where
  component : EndsWithin ts start (component ctx depth (ts.drop start))
  /-- A block is read after its opening brace. -/
  block : EndsWithin ts start (block (Parser.component ctx depth) owner (ts.drop start))
  /-- A modifier is read from its dot on. -/
  modifier : EndsWithin ts start (modifier ctx.profile (advance (ts.drop start)))
  /-- Arguments are read after their opening parenthesis. -/
  arguments : EndsWithin ts start (argumentList ctx.profile (ts.drop start))
  argument : EndsWithin ts start (argument ctx.profile (ts.drop start))
  /-- The calls of components nest at most as deep as there are tokens. -/
  nesting : (ts.drop start).length < depth →
    ∀ position, Parser.component ctx depth (ts.drop start) ≠ .error (.tooDeep position)

/-- A loop that starts at some tokens makes progress within `ts` and is left with `r`. -/
structure LoopProgress {σ β : Type} (ts : List Token) (tokens : σ → List Token)
    (turn : σ → Turn σ β) (s : σ) (r : β) : Prop where
  advances : Advances ts tokens turn
  leaves : Leaves turn s r

/-- The loops that start at the index `start`. -/
structure LoopsProgress (ctx : Context) (depth : Nat) (owner : String) (previous : Option Token)
    (ts : List Token) (start : Nat) : Prop where
  top : LoopProgress ts TopState.tokens (topTurn ctx) ⟨[], start, previous, ts.drop start⟩
    (survey ctx start previous (ts.drop start))
  block : LoopProgress ts Prod.snd (blockTurn ctx depth owner) ([], ts.drop start)
    (block (component ctx depth) owner (ts.drop start))
  arguments : LoopProgress ts Prod.snd (argumentTurn ctx.profile) ([], ts.drop start)
    (arguments ctx.profile (ts.drop start))
  modifiers : LoopProgress ts Prod.snd (modifierTurn ctx.profile) ([], ts.drop start)
    (modifiers ctx.profile (ts.drop start))

theorem collected_nil {α : Type} (r : Step (List α)) : collected [] r = r := by
  rcases r with stop | ⟨later, rest⟩ <;> rfl

theorem callsProgress (ctx : Context) (depth : Nat) (owner : String) {ts : List Token}
    (hended : Ended ts) {start : Nat} (hstart : start < ts.length) :
    CallsProgress ctx depth owner ts start := by
  constructor
  case component =>
    exact endsWithin hended hstart (ends_component ctx depth _) (fun _ _ => length_component_lt)
      fun _ => deepAt_of_component
  case block =>
    exact endsWithin hended hstart (ends_block (fun _ => ends_entry ctx depth) owner _)
      (fun _ _ => length_block_lt) fun _ => deepAt_of_block deepAt_of_component
  case modifier =>
    exact endsWithin hended hstart ((ends_modifier _ _).mono (takes_advance _))
      (fun _ _ => length_modifier_advance_lt) fun _ h => absurd h (shallow_modifier _ _ _)
  case arguments =>
    exact endsWithin hended hstart (ends_argumentList _ _)
      (fun _ _ => length_argumentList_lt) fun _ h => absurd h (shallow_argumentList _ _ _)
  case argument =>
    exact endsWithin hended hstart (ends_argument _ _)
      (fun _ _ => length_argument_lt) fun _ h => absurd h (shallow_argument _ _ _)
  case nesting => exact fun h => shallow_component ctx h

theorem loopsProgress (ctx : Context) (depth : Nat) (owner : String) (previous : Option Token)
    {ts : List Token} (hended : Ended ts) (start : Nat) :
    LoopsProgress ctx depth owner previous ts start := by
  have hblock := leaves_block ctx depth owner [] (ts.drop start)
  have harguments := leaves_arguments ctx.profile [] (ts.drop start)
  have hmodifiers := leaves_modifiers ctx.profile [] (ts.drop start)
  rw [collected_nil] at hblock harguments hmodifiers
  exact
    { top := ⟨advances_topTurn hended ctx, leaves_surveyed (surveyed ctx start previous _) []⟩
      block := ⟨advances_blockTurn hended ctx depth owner, hblock⟩
      arguments := ⟨advances_argumentTurn hended ctx.profile, harguments⟩
      modifiers := ⟨advances_modifierTurn hended ctx.profile, hmodifiers⟩ }

/-- **Reading always makes progress and never leaves its token list.** Let the last token of `ts` be
its only end token. A call that starts at an index of `ts` ends, whatever it comes to, at that index
or a later one and not after the end token; if it succeeds, it has taken a token. Every iteration of
a loop ends at a later index or leaves the loop. So every loop is left, with what the parser gives,
and a whole source is read to its end. -/
theorem parsing_makes_progress (ctx : Context) (depth : Nat) (owner : String)
    (previous : Option Token) {ts : List Token} (hended : Ended ts) {start : Nat}
    (hstart : start < ts.length) :
    CallsProgress ctx depth owner ts start ∧ LoopsProgress ctx depth owner previous ts start ∧
      ∀ p source, Ended (tokenize p source) ∧
        Leaves (topTurn (.ofSource p source)) ⟨[], 0, none, tokenize p source⟩
          (Survey.ofSource p source) := by
  refine ⟨callsProgress ctx depth owner hended hstart,
    loopsProgress ctx depth owner previous hended start, fun p source => ?_⟩
  exact ⟨ended_tokenize p source, leaves_surveyed (surveyed_source p source) []⟩

theorem parsing_makes_progress_nested :
    CallsProgress nestedContext 20 "List" nestedTokens 2 ∧
      LoopsProgress nestedContext 20 "List" none nestedTokens 2 := by
  have hended : Ended nestedTokens := ⟨nestedTokens.dropLast, _, rfl, rfl, by decide⟩
  have hstart : 2 < nestedTokens.length := by decide
  have h := parsing_makes_progress nestedContext 20 "List" none hended hstart
  exact ⟨h.1, h.2.1⟩

end UiMarkup.Parser
