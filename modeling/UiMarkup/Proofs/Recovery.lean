import Mathlib.Data.List.Basic
import UiMarkup.Proofs.Surveys
import UiMarkup.Proofs.Tokens

/-!
# Recovery

After a component that could not be read, a survey goes on where reading stood: it neither reads a
token twice nor passes over a component that starts after it.

* `StartsAt p ts i`: a component starts at the token with the index `i`.
* `located_of_surveyed`: an attempt starts where a component starts, and takes what reading takes.
* `covered_of_surveyed`: each start lies in what some attempt takes.
* `Sweeps ctx ts s`: the attempts of `s` go through `ts` once.
-/

namespace UiMarkup

namespace Parser

/-! ## Starts -/

/-- A component starts at the token with the index `i`: it names a component, the next token opens a
call, and the previous one does not preclude it. -/
def StartsAt (p : Profile) (ts : List Token) (i : Nat) : Prop :=
  ∃ name next, ts[i]? = some name ∧ ts[i + 1]? = some next ∧ namesComponent p name ∧
    next.opensCall ∧ ∀ previous, 0 < i → ts[i - 1]? = some previous →
      precludesComponent previous = false

theorem startsAt_iff (p : Profile) (before ts : List Token) :
    StartsAt p (before ++ ts) before.length ↔ startsAtTop p before.getLast? ts := by
  have hprevious : (∀ previous, 0 < before.length →
      (before ++ ts)[before.length - 1]? = some previous → precludesComponent previous = false) ↔
      before.getLast?.any precludesComponent = false := by
    rw [List.getLast?_eq_getElem?]
    cases before with
    | nil => simp
    | cons t before =>
      rw [List.getElem?_append_left (by simp)]
      simp
  rw [StartsAt]
  simp only [hprevious, List.getElem?_append_right (Nat.le_refl _),
    List.getElem?_append_right (Nat.le_succ _), Nat.sub_self]
  unfold startsAtTop
  split
  · next name next tail => simp [and_assoc, and_comm, and_left_comm]
  · next hts =>
    cases ts with
    | nil => simp
    | cons t ts =>
      cases ts with
      | nil => simp
      | cons t' ts => exact absurd rfl (hts t t' ts)

/-! ## What the attempts of a survey take -/

section
variable {ctx : Context} {index : Nat} {previous : Option Token} {ts : List Token} {s : Survey}

theorem bounds_of_surveyed (h : Surveyed ctx index previous ts s) :
    ∀ a ∈ s.attempts, index ≤ a.start ∧ a.start < a.stop := by
  induction h with
  | done | halted => simp
  | skip _ _ _ ih =>
    intro a ha
    have := ih a ha
    omega
  | attempt _ hne _ _ ih =>
    have hpos := List.length_pos_iff.mpr hne
    refine List.forall_mem_cons.mpr ⟨⟨Nat.le_refl _, Nat.lt_add_of_pos_right hpos⟩, ?_⟩
    intro a ha
    have := ih a ha
    omega

/-- The attempts take disjoint rows of tokens, from left to right. -/
theorem ordered_of_surveyed (h : Surveyed ctx index previous ts s) :
    s.attempts.Pairwise fun a b => a.stop ≤ b.start := by
  induction h with
  | done | halted => exact .nil
  | skip _ _ _ ih => exact ih
  | attempt _ _ _ h ih =>
    exact List.pairwise_cons.mpr ⟨fun b hb => (bounds_of_surveyed h b hb).1, ih⟩

/-- An attempt starts where a component starts; it comes to what reading from there comes to, and
takes what reading takes. -/
theorem located_of_surveyed (before : List Token) (h : Surveyed ctx index previous ts s)
    (hindex : index = before.length) (hprevious : previous = before.getLast?) :
    ∀ a ∈ s.attempts, StartsAt ctx.profile (before ++ ts) a.start ∧
      Yields ctx ((before ++ ts).drop a.start) a.outcome ((before ++ ts).drop a.stop) := by
  induction h generalizing before with
  | done | halted => simp
  | @skip index previous t ts s _ _ _ ih =>
    have := @ih (before ++ [t]) (by simp [hindex]) (by simp)
    simpa using this
  | @attempt index previous used rest outcome s hs hne hy h ih =>
    subst hindex hprevious
    have hlater := @ih (before ++ used) (by simp) (by rw [List.getLast?_append_of_ne_nil _ hne])
    rw [List.append_assoc] at hlater
    refine List.forall_mem_cons.mpr ⟨⟨(startsAt_iff _ _ _).mpr hs, ?_⟩, hlater⟩
    rw [List.drop_left, ← List.append_assoc, ← List.length_append, List.drop_left]
    exact hy

/-- A survey that is not given up passes over no start: each lies in what some attempt takes. -/
theorem covered_of_surveyed (before : List Token) (h : Surveyed ctx index previous ts s)
    (hindex : index = before.length) (hprevious : previous = before.getLast?) (hended : Ended ts)
    (hhalt : s.halt = none) {i : Nat} (hi : before.length ≤ i)
    (hstart : StartsAt ctx.profile (before ++ ts) i) :
    ∃ a ∈ s.attempts, a.start ≤ i ∧ i < a.stop := by
  induction h generalizing before with
  | @done index previous ts hend =>
    -- Nothing starts at the end token, which is the last one.
    obtain ⟨us, last, rfl, hlast, hus⟩ := hended
    cases us with
    | cons t us => exact absurd hend (hus t List.mem_cons_self)
    | nil =>
      obtain ⟨name, next, -, hnext, -⟩ := hstart
      obtain ⟨hlt, -⟩ := List.getElem?_eq_some_iff.mp hnext
      simp at hlt
      omega
  | halted => cases hhalt
  | @skip index previous t ts s hk hs _ ih =>
    subst hindex hprevious
    rcases Nat.eq_or_lt_of_le hi with rfl | hlt
    · rw [startsAt_iff, hs] at hstart
      cases hstart
    · refine @ih (before ++ [t]) (by simp) (by simp) (hended.takes (takes_cons hk ts)) hhalt ?_ ?_
      · rw [List.length_append, List.length_singleton]
        exact hlt
      · simpa using hstart
  | @attempt index previous used rest outcome s hs hne hy h ih =>
    subst hindex hprevious
    by_cases hlt : i < before.length + used.length
    · exact ⟨_, List.mem_cons_self, hi, hlt⟩
    · obtain ⟨a, ha, hcover⟩ := @ih (before ++ used) (by simp)
        (by rw [List.getLast?_append_of_ne_nil _ hne])
        (hended.takes (hy.takes_of_startsAtTop hs)) hhalt
        (by simpa using hlt) (by simpa using hstart)
      exact ⟨a, List.mem_cons_of_mem _ ha, hcover⟩

/-- After an attempt, a survey goes on as one that starts at the token where the attempt stopped. -/
theorem resumed_of_surveyed (before : List Token) (h : Surveyed ctx index previous ts s)
    (hindex : index = before.length) (hprevious : previous = before.getLast?)
    {earlier later : List Attempt} {a : Attempt} (ha : s.attempts = earlier ++ a :: later) :
    Surveyed ctx a.stop ((before ++ ts).take a.stop).getLast? ((before ++ ts).drop a.stop)
      ⟨later, s.halt⟩ := by
  induction h generalizing before earlier with
  | done | halted => simp at ha
  | @skip index previous t ts s _ _ _ ih =>
    have := @ih (before ++ [t]) (by simp [hindex]) (by simp) earlier ha
    simpa using this
  | @attempt index previous used rest outcome s _ hne _ h ih =>
    subst hindex
    cases earlier with
    | nil =>
      obtain ⟨rfl, rfl⟩ := List.cons.inj ha
      rw [← List.append_assoc, ← List.length_append, List.take_left, List.drop_left,
        List.getLast?_append_of_ne_nil _ hne, List.length_append]
      exact h
    | cons b earlier =>
      have := @ih (before ++ used) (by simp)
        (by rw [List.getLast?_append_of_ne_nil _ hne]) earlier (List.cons.inj ha).2
      simpa using this

/-- A survey that is given up ends at the first start that no attempt takes. -/
theorem halted_of_surveyed (before : List Token) (h : Surveyed ctx index previous ts s)
    (hindex : index = before.length) (hprevious : previous = before.getLast?) {halt : Halt}
    (hhalt : s.halt = some halt) :
    ∃ i, before.length ≤ i ∧ StartsAt ctx.profile (before ++ ts) i ∧
      (∀ a ∈ s.attempts, a.stop ≤ i) ∧ GivesUp ctx ((before ++ ts).drop i) halt ∧
      ∀ k, before.length ≤ k → k < i → StartsAt ctx.profile (before ++ ts) k →
        ∃ a ∈ s.attempts, a.start ≤ k ∧ k < a.stop := by
  induction h generalizing before with
  | done => cases hhalt
  | @halted index previous ts halt hs h =>
    subst hprevious
    obtain rfl := Option.some.inj hhalt
    refine ⟨before.length, Nat.le_refl _, (startsAt_iff _ _ _).mpr hs, by simp, ?_, by omega⟩
    rwa [List.drop_left]
  | @skip index previous t ts s _ hs _ ih =>
    subst hprevious
    obtain ⟨i, hle, hrest⟩ := @ih (before ++ [t]) (by simp [hindex]) (by simp) hhalt
    simp only [List.append_assoc, List.singleton_append, List.length_append,
      List.length_singleton] at hle hrest
    obtain ⟨hstart, hstops, hgives, hfirst⟩ := hrest
    refine ⟨i, by omega, hstart, hstops, hgives, fun k hk hlt hstart' => ?_⟩
    rcases Nat.eq_or_lt_of_le hk with rfl | hk
    · rw [startsAt_iff, hs] at hstart'
      cases hstart'
    · exact hfirst k hk hlt hstart'
  | @attempt index previous used rest outcome s _ hne _ _ ih =>
    subst hindex
    obtain ⟨i, hle, hrest⟩ := @ih (before ++ used) (by simp)
      (by rw [List.getLast?_append_of_ne_nil _ hne]) hhalt
    rw [List.append_assoc, List.length_append] at hrest
    rw [List.length_append] at hle
    obtain ⟨hstart, hstops, hgives, hfirst⟩ := hrest
    refine ⟨i, by omega, hstart, List.forall_mem_cons.mpr ⟨hle, hstops⟩, hgives,
      fun k hk hlt hstart' => ?_⟩
    by_cases hinside : k < before.length + used.length
    · exact ⟨_, List.mem_cons_self, hk, hinside⟩
    · obtain ⟨a, ha, hcover⟩ := hfirst k (by omega) hlt hstart'
      exact ⟨a, List.mem_cons_of_mem _ ha, hcover⟩

end

/-! ## Reports -/

/-- Where a component starts, the tokens start with its name. -/
theorem StartsAt.drop {p : Profile} {ts : List Token} {i : Nat} (h : StartsAt p ts i) :
    ∃ name, ts.drop i = name :: ts.drop (i + 1) ∧ name.kind = .identifier ∧ i < ts.length := by
  obtain ⟨hlt, -⟩ := List.getElem?_eq_some_iff.mp h.choose_spec.choose_spec.1
  have hstart : startsAtTop p (ts.take i).getLast? (ts.drop i) := by
    rw [← startsAt_iff, List.take_append_drop, List.length_take_of_le (Nat.le_of_lt hlt)]
    exact h
  obtain ⟨name, tail, heq, hk⟩ := kind_of_startsAtTop hstart
  rw [List.drop_eq_getElem_cons hlt] at heq ⊢
  obtain ⟨rfl, -⟩ := List.cons.inj heq
  exact ⟨_, rfl, hk, hlt⟩

/-- A dropped component is reported at a token after its start, at the latest at the one where
reading stands. -/
theorem reported_of_yields {ctx : Context} {ts rest : List Token} {start stop : Nat}
    {d : Diagnostic} (hended : Ended ts) (hstart : StartsAt ctx.profile ts start)
    (h : Yields ctx (ts.drop start) (.dropped d) rest) (hrest : rest = ts.drop stop) :
    ∃ j t, start < j ∧ j ≤ stop ∧ ts[j]? = some t ∧ d.position = t.position := by
  obtain ⟨name, hdrop, hk, hlt⟩ := hstart.drop
  have htail := (hended.drop hlt).takes (hdrop ▸ takes_cons (by simp [hk]) _)
  have hends := ends_call ctx maxDepth hk (ts.drop (start + 1))
  rw [hdrop] at h
  cases h with
  | @dropped f hf =>
    rw [hf] at hends
    cases hends with
    | failure htake hp =>
      have hne := (htail.takes htake).ne_nil
      obtain ⟨used, heq, -⟩ := htake
      have hlen := congrArg List.length heq
      rw [hrest] at hp hne hlen
      simp only [List.length_append, List.length_drop] at hlen
      have hstop : stop < ts.length := by
        by_contra hge
        exact hne (List.drop_eq_nil_of_le (Nat.le_of_not_lt hge))
      rw [List.drop_eq_getElem_cons hstop] at hp
      exact ⟨stop, ts[stop], by omega, Nat.le_refl stop, List.getElem?_eq_getElem hstop, hp⟩
    | @unclosed _ t htake _ hp =>
      obtain ⟨used, heq, -⟩ := htake
      have hlen := congrArg List.length heq
      rw [hrest] at hlen
      simp only [List.length_append, List.length_cons, List.length_drop] at hlen
      refine ⟨start + 1 + used.length, t, by omega, by omega, ?_, hp⟩
      rw [← List.getElem?_drop, heq]
      simp

end Parser

namespace Survey

theorem outcome_of_diagnostic {a : Attempt} {d : Diagnostic}
    (h : (match a.outcome with
      | .node _ => none
      | .dropped d => some d) = some d) : a.outcome = .dropped d := by
  cases ho : a.outcome with
  | node c => rw [ho] at h; cases h
  | dropped e =>
    rw [ho] at h
    cases h
    rfl

/-- Each attempt gives one node or one diagnostic. -/
theorem length_nodes_add_diagnostics (s : Survey) :
    s.nodes.length + s.diagnostics.length = s.attempts.length := by
  obtain ⟨attempts, halt⟩ := s
  unfold nodes diagnostics
  induction attempts with
  | nil => rfl
  | cons a attempts ih =>
    dsimp only at ih
    cases h : a.outcome with
    | node c =>
      simp only [List.filterMap_cons, h, List.length_cons]
      omega
    | dropped d =>
      simp only [List.filterMap_cons, h, List.length_cons]
      omega

end Survey

namespace Parser

/-! ## The whole survey -/

/-- The attempts of a survey go through the tokens once. -/
structure Sweeps (ctx : Context) (ts : List Token) (s : Survey) : Prop where
  /-- They take disjoint rows of tokens, from left to right. -/
  ordered : s.attempts.Pairwise fun a b => a.stop ≤ b.start
  /-- Each takes at least one token, and none the end token. -/
  taken : ∀ a ∈ s.attempts, a.start < a.stop ∧ a.stop < ts.length
  /-- They start exactly where a component starts that no earlier attempt takes. -/
  starts : ∀ i, (∃ a ∈ s.attempts, a.start = i) ↔
    StartsAt ctx.profile ts i ∧ ∀ a ∈ s.attempts, ¬ (a.start < i ∧ i < a.stop)
  /-- Each comes to what reading from its start comes to, and stops where reading stands then. -/
  yields : ∀ a ∈ s.attempts, Yields ctx (ts.drop a.start) a.outcome (ts.drop a.stop)
  /-- A dropped component is reported at a token after its start. -/
  reports : ∀ a ∈ s.attempts, ∀ d, a.outcome = .dropped d →
    ∃ j t, a.start < j ∧ ts[j]? = some t ∧ d.position = t.position
  /-- The diagnostics are in the order of their offsets. -/
  increasing : s.diagnostics.Pairwise fun d e => d.position < e.position

/-- Attempts that take disjoint rows from left to right do not start within each other. -/
theorem not_within_of_ordered {attempts : List Attempt}
    (h : attempts.Pairwise fun a b => a.stop ≤ b.start)
    (htaken : ∀ a ∈ attempts, a.start < a.stop) :
    ∀ a ∈ attempts, ∀ b ∈ attempts, ¬ (a.start < b.start ∧ b.start < a.stop) := by
  intro a ha b hb
  refine List.Pairwise.forall_of_forall_of_flip
    (R := fun a b : Attempt => ¬ (a.start < b.start ∧ b.start < a.stop)) ?_ ?_ ?_ ha hb
  · omega
  · exact h.imp fun {a b} hstop => by omega
  · refine h.imp_of_mem fun {a b} ha hb hstop => ?_
    have := htaken a ha
    simp only [flip]
    omega

/-- A survey that is not given up goes through the tokens once. -/
theorem sweeps_of_surveyed {ctx : Context} {ts : List Token} {s : Survey}
    (h : Surveyed ctx 0 none ts s) (hended : Ended ts)
    (hincreasing : ts.Pairwise fun t u => t.position < u.position) (hhalt : s.halt = none) :
    Sweeps ctx ts s := by
  have hordered := ordered_of_surveyed h
  have hlocated := located_of_surveyed [] h rfl rfl
  rw [List.nil_append] at hlocated
  have hreported (a : Attempt) (ha : a ∈ s.attempts) (d : Diagnostic)
      (hd : a.outcome = .dropped d) :
      ∃ j t, a.start < j ∧ j ≤ a.stop ∧ ts[j]? = some t ∧ d.position = t.position := by
    obtain ⟨hstart, hyields⟩ := hlocated a ha
    rw [hd] at hyields
    exact reported_of_yields hended hstart hyields rfl
  refine ⟨hordered, fun a ha => ⟨(bounds_of_surveyed h a ha).2, ?_⟩, fun i => ⟨?_, ?_⟩,
    fun a ha => (hlocated a ha).2, fun a ha d hd => ?_, ?_⟩
  · obtain ⟨hstart, hyields⟩ := hlocated a ha
    obtain ⟨name, hdrop, hk, hlt⟩ := hstart.drop
    have htail := (hended.drop hlt).takes (hdrop ▸ takes_cons (by simp [hk]) _)
    rw [hdrop] at hyields
    have hne := (htail.takes (hyields.takes hk)).ne_nil
    by_contra hge
    exact hne (List.drop_eq_nil_of_le (Nat.le_of_not_lt hge))
  · rintro ⟨a, ha, rfl⟩
    refine ⟨(hlocated a ha).1, fun b hb hinside => ?_⟩
    exact not_within_of_ordered hordered (fun a ha => (bounds_of_surveyed h a ha).2) b hb a ha
      hinside
  · rintro ⟨hstart, houtside⟩
    obtain ⟨a, ha, hle, hlt⟩ := covered_of_surveyed [] h rfl rfl hended hhalt
      (Nat.zero_le i) hstart
    rcases Nat.eq_or_lt_of_le hle with heq | hinside
    · exact ⟨a, ha, heq⟩
    · exact absurd ⟨hinside, hlt⟩ (houtside a ha)
  · obtain ⟨j, t, hlt, -, hget, hp⟩ := hreported a ha d hd
    exact ⟨j, t, hlt, hget, hp⟩
  · rw [Survey.diagnostics, List.pairwise_filterMap]
    refine hordered.imp_of_mem fun {a b} ha hb hstop d hd e he => ?_
    obtain ⟨j, t, -, hle, hj, hd⟩ := hreported a ha d (Survey.outcome_of_diagnostic hd)
    obtain ⟨k, u, hlt, -, hk, he⟩ := hreported b hb e (Survey.outcome_of_diagnostic he)
    obtain ⟨hjlt, rfl⟩ := List.getElem?_eq_some_iff.mp hj
    obtain ⟨hklt, rfl⟩ := List.getElem?_eq_some_iff.mp hk
    rw [hd, he]
    exact List.pairwise_iff_getElem.mp hincreasing j k hjlt hklt (by omega)

/-! ## Sources -/

/-- The tokens of a source end with their only end token. -/
theorem ended_tokenize (p : Profile) (source : String) : Ended (tokenize p source) := by
  obtain ⟨ts, hts, hkinds⟩ := exists_tokensFrom_eq p 0 source.toList
  exact ⟨ts, _, hts, rfl, hkinds⟩

/-- If reading gives the tokens up for an integer, one of the tokens after the name has too many
digits. -/
theorem oversized_of_givesUp {ctx : Context} {ts : List Token} {i digits : Nat}
    (hstart : StartsAt ctx.profile ts i)
    (h : component ctx maxDepth (ts.drop i) = .error (.oversizedInteger digits)) :
    ∃ j t, i < j ∧ ts[j]? = some t ∧ Oversized digits t := by
  obtain ⟨name, hdrop, hk, -⟩ := hstart.drop
  have hends := ends_call ctx maxDepth hk (ts.drop (i + 1))
  rw [← hdrop, h] at hends
  cases hends with
  | @oversized _ t rest htake ht =>
    obtain ⟨used, heq, -⟩ := htake
    refine ⟨i + 1 + used.length, t, by omega, ?_, ht⟩
    rw [← List.getElem?_drop, heq]
    simp

/-- A source in which every integer can be converted is not given up for one. -/
theorem halt_ne_oversized {p : Profile} {source : String}
    (hints : ∀ t ∈ tokenize p source, Grammar.Convertible t) (digits : Nat) :
    (Survey.ofSource p source).halt ≠ some (.oversizedInteger digits) := by
  intro hhalt
  obtain ⟨i, -, hstart, -, hgives, -⟩ := halted_of_surveyed []
    (surveyed_source p source) rfl rfl hhalt
  cases hgives with
  | oversizedInteger h =>
    obtain ⟨j, t, -, hget, hkind, hpoint, hlength, hlt⟩ := oversized_of_givesUp hstart h
    have hle := hints t (List.mem_of_getElem? hget) hkind hpoint
    omega

/-- **Recovery neither rescans nor skips.** If no integer has too many digits and the components do
not nest too deeply, the survey of a source goes through its tokens once, and the source is read as
what its attempts come to: each gives one node or one diagnostic. -/
theorem survey_neither_rescans_nor_skips (p : Profile) (source : String)
    (hdepth : ∀ position, (Survey.ofSource p source).halt ≠ some (.tooDeep position))
    (hints : ∀ t ∈ tokenize p source, Grammar.Convertible t) :
    (Survey.ofSource p source).forest source =
        .ok ⟨(Survey.ofSource p source).nodes, (Survey.ofSource p source).diagnostics⟩ ∧
      (Survey.ofSource p source).nodes.length + (Survey.ofSource p source).diagnostics.length =
        (Survey.ofSource p source).attempts.length ∧
      Sweeps (.ofSource p source) (tokenize p source) (Survey.ofSource p source) := by
  have hhalt : (Survey.ofSource p source).halt = none := by
    cases h : (Survey.ofSource p source).halt with
    | none => rfl
    | some halt =>
      cases halt with
      | tooDeep position => exact absurd h (hdepth position)
      | oversizedInteger digits => exact absurd h (halt_ne_oversized hints digits)
  refine ⟨Survey.forest_of_halt_eq_none hhalt source, Survey.length_nodes_add_diagnostics _, ?_⟩
  exact sweeps_of_surveyed (surveyed_source p source) (ended_tokenize p source)
    (tokensFrom_increasing p 0 source.toList) hhalt

/-- The source `Text(=)Text(a)`: its first component is dropped, its second one is read. -/
def halfReadable : String := "Text(=)Text(a)"

theorem tokenize_halfReadable :
    tokenize .plain halfReadable =
      [⟨.identifier, "Text", 0⟩, ⟨.symbol, "(", 4⟩, ⟨.unknown, "=", 5⟩, ⟨.symbol, ")", 6⟩,
        ⟨.identifier, "Text", 7⟩, ⟨.symbol, "(", 11⟩, ⟨.identifier, "a", 12⟩, ⟨.symbol, ")", 13⟩,
        ⟨.eof, "", 14⟩] := by
  decide +kernel

theorem attempts_halfReadable :
    Survey.ofSource .plain halfReadable =
      ⟨[⟨0, 2, .dropped ⟨.unexpectedArgument "=", 5, ⟨1, 6⟩⟩⟩,
        ⟨4, 8, .node ⟨"Text", [.reference "a"], [], [], ⟨1, 8⟩⟩⟩], none⟩ := by
  rw [Survey.ofSource, tokenize_halfReadable]
  with_unfolding_all rfl

theorem survey_neither_rescans_nor_skips_halfReadable :
    (Survey.ofSource .plain halfReadable).diagnostics.length = 1 ∧
      Sweeps (.ofSource .plain halfReadable) (tokenize .plain halfReadable)
        (Survey.ofSource .plain halfReadable) := by
  have hdepth (position : Nat) :
      (Survey.ofSource .plain halfReadable).halt ≠ some (.tooDeep position) := by
    rw [attempts_halfReadable]
    nofun
  have hints : ∀ t ∈ tokenize .plain halfReadable, Grammar.Convertible t := by
    rw [tokenize_halfReadable]
    intro t ht hkind
    simp only [List.mem_cons, List.not_mem_nil, or_false] at ht
    rcases ht with rfl | rfl | rfl | rfl | rfl | rfl | rfl | rfl | rfl <;> cases hkind
  refine ⟨by rw [attempts_halfReadable]; rfl, ?_⟩
  exact (survey_neither_rescans_nor_skips .plain halfReadable hdepth hints).2.2

end Parser

end UiMarkup
