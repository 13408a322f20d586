import UiMarkup.Markup.Forest
import UiMarkup.Proofs.Endings

/-!
# The run of a survey

A survey skips a token, makes an attempt and goes on right after the tokens that it took, or ends.

* `Yields ctx ts outcome rest`: what an attempt on `ts` comes to, and where reading stands after it.
* `Surveyed ctx index previous ts s`: the run that ends with the survey `s`, step by step.
* `surveyed`: every survey runs that way, so a fact about surveys is an induction along the run.
-/

namespace UiMarkup

namespace Survey

variable (earlier later : List Attempt) (a : Attempt) (halt : Option Halt)

theorem nodes_append :
    nodes ⟨earlier ++ later, halt⟩ = nodes ⟨earlier, none⟩ ++ nodes ⟨later, none⟩ :=
  List.filterMap_append

theorem diagnostics_append :
    diagnostics ⟨earlier ++ later, halt⟩ =
      diagnostics ⟨earlier, none⟩ ++ diagnostics ⟨later, none⟩ :=
  List.filterMap_append

variable {a}

theorem nodes_dropped {d : Diagnostic} (h : a.outcome = .dropped d) :
    nodes ⟨a :: later, none⟩ = nodes ⟨later, none⟩ := by
  simp only [nodes, List.filterMap_cons, h]

theorem diagnostics_dropped {d : Diagnostic} (h : a.outcome = .dropped d) :
    diagnostics ⟨a :: later, none⟩ = d :: diagnostics ⟨later, none⟩ := by
  simp only [diagnostics, List.filterMap_cons, h]

variable {s : Survey}

theorem forest_of_halt_eq_none (h : s.halt = none) (source : String) :
    s.forest source = .ok ⟨s.nodes, s.diagnostics⟩ := by
  rw [forest, h]

/-- A survey yields its nodes and diagnostics, or else a diagnostic for components that nest too
deeply and nothing else. -/
theorem forest_eq_ok {source : String} {forest : Forest} (h : s.forest source = .ok forest) :
    s.halt = none ∧ forest = ⟨s.nodes, s.diagnostics⟩ ∨
      ∃ position, s.halt = some (.tooDeep position) ∧
        forest = ⟨[], [tooDeepDiagnostic source position]⟩ := by
  unfold Survey.forest at h
  split at h
  · next hhalt => exact .inl ⟨hhalt, (Except.ok.inj h).symm⟩
  · next position hhalt => exact .inr ⟨position, hhalt, (Except.ok.inj h).symm⟩
  · cases h

theorem forest_of_halt_oversized {digits : Nat} (h : s.halt = some (.oversizedInteger digits))
    (source : String) : s.forest source = .error ⟨digits⟩ := by
  rw [forest, h]

end Survey

namespace Parser

/-! ## Attempts -/

/-- What an attempt on the tokens `ts` comes to, and the tokens at which reading stands after it. -/
inductive Yields (ctx : Context) (ts : List Token) : Outcome → List Token → Prop where
  | node {c : Component} {rest : List Token} (h : component ctx maxDepth ts = .ok (c, rest)) :
      Yields ctx ts (.node c) rest
  | dropped {f : Failure} (h : component ctx maxDepth ts = .error (.failure f)) :
      Yields ctx ts (.dropped ⟨f.cause, f.position, ctx.locate f.position⟩) f.rest

/-- An attempt on the tokens `ts` makes the survey end there. -/
inductive GivesUp (ctx : Context) (ts : List Token) : Halt → Prop where
  | tooDeep {position : Nat} (h : component ctx maxDepth ts = .error (.tooDeep position)) :
      GivesUp ctx ts (.tooDeep position)
  | oversizedInteger {digits : Nat}
      (h : component ctx maxDepth ts = .error (.oversizedInteger digits)) :
      GivesUp ctx ts (.oversizedInteger digits)

/-- An attempt comes to something, or it makes the survey end. -/
theorem yields_or_givesUp (ctx : Context) (ts : List Token) :
    (∃ outcome rest, Yields ctx ts outcome rest) ∨ ∃ halt, GivesUp ctx ts halt := by
  cases h : component ctx maxDepth ts with
  | ok x => exact .inl ⟨_, _, .node h⟩
  | error stop =>
    cases stop with
    | failure f => exact .inl ⟨_, _, .dropped h⟩
    | tooDeep position => exact .inr ⟨_, .tooDeep h⟩
    | oversizedInteger digits => exact .inr ⟨_, .oversizedInteger h⟩

/-- A survey is given up for one reason. -/
theorem GivesUp.unique {ctx : Context} {ts : List Token} {halt halt' : Halt}
    (h : GivesUp ctx ts halt) (h' : GivesUp ctx ts halt') : halt = halt' := by
  cases h with
  | tooDeep h | oversizedInteger h =>
    cases h' with
    | tooDeep h' | oversizedInteger h' => simp_all

/-- What starts at top level starts with a name. -/
theorem kind_of_startsAtTop {p : Profile} {previous : Option Token} {ts : List Token}
    (h : startsAtTop p previous ts) : ∃ name tail, ts = name :: tail ∧ name.kind = .identifier := by
  unfold startsAtTop at h
  split at h
  · next name next tail =>
    simp only [Bool.and_eq_true] at h
    refine ⟨name, _, rfl, ?_⟩
    have hname := h.1.1
    cases p with
    | plain =>
      simp only [namesComponent, Bool.and_eq_true, beq_iff_eq] at hname
      exact hname.1
    | extended => exact Token.kind_of_isCapitalised hname
  · cases h

/-- An attempt takes the name and some tokens after it, and never the end token. -/
theorem Yields.takes {ctx : Context} {name : Token} {ts rest : List Token} {outcome : Outcome}
    (h : Yields ctx (name :: ts) outcome rest) (hn : name.kind = .identifier) : Takes ts rest := by
  have hends := ends_call ctx maxDepth hn ts
  cases h with
  | node h => exact hends.takes h
  | dropped h =>
    rw [h] at hends
    cases hends with
    | failure htake _ => exact htake
    | unclosed htake hk _ => exact htake.trans (takes_cons (by simp [hk]) _)

theorem Yields.takes_of_startsAtTop {ctx : Context} {p : Profile} {previous : Option Token}
    {ts rest : List Token} {outcome : Outcome} (h : Yields ctx ts outcome rest)
    (hs : startsAtTop p previous ts) : Takes ts rest := by
  obtain ⟨name, tail, rfl, hk⟩ := kind_of_startsAtTop hs
  exact (takes_cons (by simp [hk]) tail).trans (h.takes hk)

/-! ## The steps of a survey -/

/-- Reading goes on right after a component. -/
theorem resume_append {used : List Token} (h : used ≠ []) (rest : List Token) :
    resume (used ++ rest) rest = rest := by
  have := List.length_pos_iff.mpr h
  rw [resume, if_pos (by simp only [List.length_append]; omega)]

theorem lastBefore_append {used : List Token} (h : used ≠ []) (rest : List Token) :
    lastBefore (used ++ rest) rest = used.getLast? := by
  have := List.length_pos_iff.mpr h
  rw [lastBefore, List.length_append, Nat.add_sub_cancel, List.getLast?_eq_getElem?,
    List.getElem?_append_left (by omega)]

section
variable {ctx : Context} {index : Nat} {previous : Option Token}

theorem survey_done {ts : List Token} (h : (current ts).kind = .eof) :
    survey ctx index previous ts = ⟨[], none⟩ := by
  cases ts with
  | nil => rw [survey]
  | cons t ts =>
    have hk : t.kind = .eof := h
    rw [survey, if_pos (beq_iff_eq.mpr hk)]

theorem survey_skip {t : Token} {ts : List Token} (hk : t.kind ≠ .eof)
    (hs : startsAtTop ctx.profile previous (t :: ts) = false) :
    survey ctx index previous (t :: ts) = survey ctx (index + 1) (some t) ts := by
  rw [survey, if_neg (by simpa using hk), if_neg (by simp [hs])]

/-- After an attempt, the survey goes on right after the tokens that the attempt took. -/
theorem survey_attempt {used rest : List Token} {outcome : Outcome}
    (hs : startsAtTop ctx.profile previous (used ++ rest)) (hne : used ≠ [])
    (hy : Yields ctx (used ++ rest) outcome rest) :
    survey ctx index previous (used ++ rest) =
      ⟨⟨index, index + used.length, outcome⟩ ::
          (survey ctx (index + used.length) used.getLast? rest).attempts,
        (survey ctx (index + used.length) used.getLast? rest).halt⟩ := by
  have hresume := resume_append hne rest
  have hlast := lastBefore_append hne rest
  obtain ⟨name, used, rfl⟩ := List.exists_cons_of_ne_nil hne
  obtain ⟨_, _, heq, hk⟩ := kind_of_startsAtTop hs
  obtain ⟨rfl, -⟩ := List.cons.inj heq
  have hlength : index + ((name :: (used ++ rest)).length - rest.length) =
      index + (name :: used).length := by
    simp only [List.length_cons, List.length_append]
    omega
  rw [List.cons_append] at hs hy hresume hlast ⊢
  rw [survey, if_neg (by simp [hk]), if_pos hs]
  cases hy with
  | node h => simp only [h, hresume, hlast, hlength]
  | dropped h => simp only [h, hresume, hlast, hlength]

theorem survey_halted {ts : List Token} {halt : Halt} (hs : startsAtTop ctx.profile previous ts)
    (h : GivesUp ctx ts halt) : survey ctx index previous ts = ⟨[], some halt⟩ := by
  obtain ⟨name, tail, rfl, hk⟩ := kind_of_startsAtTop hs
  rw [survey, if_neg (by simp [hk]), if_pos hs]
  cases h with
  | tooDeep h => simp only [h]
  | oversizedInteger h => simp only [h]

end

/-- The run of a survey over the tokens `ts`, of which the first has the given index and follows
`previous`. -/
inductive Surveyed (ctx : Context) : Nat → Option Token → List Token → Survey → Prop where
  | done {index : Nat} {previous : Option Token} {ts : List Token}
      (h : (current ts).kind = .eof) : Surveyed ctx index previous ts ⟨[], none⟩
  | skip {index : Nat} {previous : Option Token} {t : Token} {ts : List Token} {s : Survey}
      (hk : t.kind ≠ .eof) (hs : startsAtTop ctx.profile previous (t :: ts) = false)
      (h : Surveyed ctx (index + 1) (some t) ts s) : Surveyed ctx index previous (t :: ts) s
  | attempt {index : Nat} {previous : Option Token} {used rest : List Token} {outcome : Outcome}
      {s : Survey} (hs : startsAtTop ctx.profile previous (used ++ rest)) (hne : used ≠ [])
      (hy : Yields ctx (used ++ rest) outcome rest)
      (h : Surveyed ctx (index + used.length) used.getLast? rest s) :
      Surveyed ctx index previous (used ++ rest)
        ⟨⟨index, index + used.length, outcome⟩ :: s.attempts, s.halt⟩
  | halted {index : Nat} {previous : Option Token} {ts : List Token} {halt : Halt}
      (hs : startsAtTop ctx.profile previous ts) (h : GivesUp ctx ts halt) :
      Surveyed ctx index previous ts ⟨[], some halt⟩

theorem Surveyed.eq {ctx : Context} {index : Nat} {previous : Option Token} {ts : List Token}
    {s : Survey} (h : Surveyed ctx index previous ts s) : survey ctx index previous ts = s := by
  induction h with
  | done h => exact survey_done h
  | skip hk hs _ ih => rw [survey_skip hk hs, ih]
  | attempt hs hne hy _ ih => rw [survey_attempt hs hne hy, ih]
  | halted hs h => exact survey_halted hs h

/-- Every survey runs that way. -/
theorem surveyed (ctx : Context) (index : Nat) (previous : Option Token) (ts : List Token) :
    Surveyed ctx index previous ts (survey ctx index previous ts) := by
  induction hn : ts.length using Nat.strong_induction_on generalizing index previous ts with
  | h n ih =>
    by_cases hend : (current ts).kind = .eof
    · rw [survey_done hend]
      exact .done hend
    cases hs : startsAtTop ctx.profile previous ts with
    | false =>
      cases ts with
      | nil => exact absurd rfl hend
      | cons t ts =>
        have hk : t.kind ≠ .eof := hend
        rw [survey_skip hk hs]
        exact .skip hk hs (ih ts.length (by rw [← hn]; simp) _ _ ts rfl)
    | true =>
      obtain ⟨name, tail, rfl, hk⟩ := kind_of_startsAtTop hs
      rcases yields_or_givesUp ctx (name :: tail) with ⟨outcome, rest, hy⟩ | ⟨halt, hhalt⟩
      · obtain ⟨used, rfl, -⟩ := hy.takes hk
        rw [← List.cons_append] at hs hy hn ⊢
        rw [survey_attempt hs (by simp) hy]
        refine .attempt hs (by simp) hy (ih rest.length ?_ _ _ rest rfl)
        rw [← hn]
        simp only [List.length_cons, List.length_append]
        omega
      · rw [survey_halted hs hhalt]
        exact .halted hs hhalt

theorem surveyed_source (p : Profile) (source : String) :
    Surveyed (.ofSource p source) 0 none (tokenize p source) (Survey.ofSource p source) :=
  surveyed _ 0 none _

end Parser

end UiMarkup
