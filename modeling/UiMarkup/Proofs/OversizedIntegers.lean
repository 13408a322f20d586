import UiMarkup.Proofs.Lexing
import UiMarkup.Proofs.Recovery

/-!
# What keeps a source from being read

Reading a source fails in one way only: a component is attempted that holds an integer with too many
digits. Any other component that cannot be read is dropped with one diagnostic, and reading goes on
after it.

* `FirstLeft p ts attempts i`: the first component that no attempt takes starts at the index `i`.
* `parse_eq_error_iff`: when reading fails, and with which number of digits.
* `forest_of_dropped`: what a source comes to around a component that is dropped.
* `parse_callWith`: a call with an integer that has too many digits is not read.
-/

namespace UiMarkup

namespace Parser

/-! ## Failure -/

/-- The first component that none of the attempts takes starts at the token with the index `i`, and
the attempts all stop before it. -/
structure FirstLeft (p : Profile) (ts : List Token) (attempts : List Attempt) (i : Nat) : Prop where
  starts : StartsAt p ts i
  after : ∀ a ∈ attempts, a.stop ≤ i
  covered : ∀ k < i, StartsAt p ts k → ∃ a ∈ attempts, a.start ≤ k ∧ k < a.stop

theorem FirstLeft.le {p : Profile} {ts : List Token} {attempts : List Attempt} {i j : Nat}
    (hi : FirstLeft p ts attempts i) (hj : FirstLeft p ts attempts j) : i ≤ j := by
  by_contra hlt
  obtain ⟨a, ha, -, hstop⟩ := hi.covered j (by omega) hj.starts
  have := hj.after a ha
  omega

/-- A survey is given up exactly at the first component that no attempt takes. -/
theorem halt_eq_some_iff {ctx : Context} {ts : List Token} {s : Survey}
    (h : Surveyed ctx 0 none ts s) (hended : Ended ts) (halt : Halt) :
    s.halt = some halt ↔
      ∃ i, FirstLeft ctx.profile ts s.attempts i ∧ GivesUp ctx (ts.drop i) halt := by
  have hfound (halt : Halt) (hhalt : s.halt = some halt) :
      ∃ i, FirstLeft ctx.profile ts s.attempts i ∧ GivesUp ctx (ts.drop i) halt := by
    obtain ⟨i, -, hstart, hafter, hgives, hcovered⟩ :=
      halted_of_surveyed [] h rfl rfl hhalt
    exact ⟨i, ⟨hstart, hafter, fun k => hcovered k (Nat.zero_le k)⟩, hgives⟩
  refine ⟨hfound halt, ?_⟩
  rintro ⟨i, hi, hgives⟩
  cases hhalt : s.halt with
  | none =>
    obtain ⟨a, ha, -, hstop⟩ := covered_of_surveyed [] h rfl rfl hended hhalt
      (Nat.zero_le i) hi.starts
    have := hi.after a ha
    omega
  | some halt' =>
    obtain ⟨j, hj, hgives'⟩ := hfound halt' hhalt
    obtain rfl : i = j := Nat.le_antisymm (hi.le hj) (hj.le hi)
    rw [hgives.unique hgives']

/-- Reading fails exactly where the first component that no attempt takes holds an integer with too
many digits. -/
theorem parse_eq_error_iff (source filename : String) (digits : Nat) :
    parse source filename = .error ⟨digits⟩ ↔
      ∃ i, FirstLeft (.ofFilename filename) (tokenize (.ofFilename filename) source)
          (Survey.ofSource (.ofFilename filename) source).attempts i ∧
        component (.ofSource (.ofFilename filename) source) maxDepth
            ((tokenize (.ofFilename filename) source).drop i) =
          .error (.oversizedInteger digits) := by
  have hforest : parse source filename = .error ⟨digits⟩ ↔
      (Survey.ofSource (.ofFilename filename) source).halt = some (.oversizedInteger digits) := by
    rw [parse, Survey.forest]
    split
    · next h => simp [h]
    · next h => simp [h]
    · next h => simp [h]
  rw [hforest, halt_eq_some_iff (surveyed_source _ source) (ended_tokenize _ source)]
  constructor
  · rintro ⟨i, hi, hgives⟩
    cases hgives with
    | oversizedInteger h => exact ⟨i, hi, h⟩
  · rintro ⟨i, hi, h⟩
    exact ⟨i, hi, .oversizedInteger h⟩

/-! ## Recovery -/

/-- A component that is dropped leaves its diagnostic and nothing else, and what follows is found as
if reading had started after it. -/
theorem forest_of_dropped {p : Profile} {source : String} {earlier later : List Attempt}
    {a : Attempt} {d : Diagnostic} (hhalt : (Survey.ofSource p source).halt = none)
    (hattempts : (Survey.ofSource p source).attempts = earlier ++ a :: later)
    (hd : a.outcome = .dropped d) :
    (Survey.ofSource p source).forest source =
        .ok ⟨Survey.nodes ⟨earlier, none⟩ ++ Survey.nodes ⟨later, none⟩,
          Survey.diagnostics ⟨earlier, none⟩ ++ d :: Survey.diagnostics ⟨later, none⟩⟩ ∧
      survey (.ofSource p source) a.stop ((tokenize p source).take a.stop).getLast?
        ((tokenize p source).drop a.stop) = ⟨later, none⟩ := by
  constructor
  · have hsurvey : Survey.ofSource p source = ⟨earlier ++ a :: later, none⟩ := by
      rw [← hattempts, ← hhalt]
    rw [Survey.forest_of_halt_eq_none hhalt, hsurvey, Survey.nodes_append,
      Survey.diagnostics_append, Survey.nodes_dropped _ hd, Survey.diagnostics_dropped _ hd]
  · have hresumed := resumed_of_surveyed [] (surveyed_source p source) rfl rfl hattempts
    rw [List.nil_append] at hresumed
    rw [hresumed.eq, ← hhalt]

/-! ## Sources -/

/-- **A source is read unless it holds an integer with too many digits.** Reading fails for no other
reason, and then one of the tokens is such an integer. If the source is not given up, a component
that cannot be read is dropped with one diagnostic, and the components after it are still found. -/
theorem parse_fails_only_for_oversized_integers (source filename : String) :
    (∀ digits, parse source filename = .error ⟨digits⟩ ↔
      ∃ i, FirstLeft (.ofFilename filename) (tokenize (.ofFilename filename) source)
          (Survey.ofSource (.ofFilename filename) source).attempts i ∧
        component (.ofSource (.ofFilename filename) source) maxDepth
            ((tokenize (.ofFilename filename) source).drop i) =
          .error (.oversizedInteger digits)) ∧
    (∀ digits, parse source filename = .error ⟨digits⟩ →
      ∃ t ∈ tokenize (.ofFilename filename) source, Oversized digits t) ∧
    ∀ earlier a later d, (Survey.ofSource (.ofFilename filename) source).halt = none →
      (Survey.ofSource (.ofFilename filename) source).attempts = earlier ++ a :: later →
      a.outcome = .dropped d →
      parse source filename =
          .ok ⟨Survey.nodes ⟨earlier, none⟩ ++ Survey.nodes ⟨later, none⟩,
            Survey.diagnostics ⟨earlier, none⟩ ++ d :: Survey.diagnostics ⟨later, none⟩⟩ ∧
        survey (.ofSource (.ofFilename filename) source) a.stop
          ((tokenize (.ofFilename filename) source).take a.stop).getLast?
          ((tokenize (.ofFilename filename) source).drop a.stop) = ⟨later, none⟩ := by
  refine ⟨parse_eq_error_iff source filename, fun digits hfails => ?_,
    fun earlier a later d => forest_of_dropped⟩
  obtain ⟨i, hi, hcomponent⟩ := (parse_eq_error_iff source filename digits).mp hfails
  obtain ⟨j, t, -, hget, ht⟩ := oversized_of_givesUp hi.starts hcomponent
  exact ⟨t, List.mem_of_getElem? hget, ht⟩

theorem parse_fails_only_for_oversized_integers_halfReadable :
    parse halfReadable "" =
      .ok ⟨[⟨"Text", [.reference "a"], [], [], ⟨1, 8⟩⟩],
        [⟨.unexpectedArgument "=", 5, ⟨1, 6⟩⟩]⟩ := by
  have hprofile : Profile.ofFilename "" = .plain := by decide
  have h := (parse_fails_only_for_oversized_integers halfReadable "").2.2 []
    ⟨0, 2, .dropped ⟨.unexpectedArgument "=", 5, ⟨1, 6⟩⟩⟩ _ _
    (by rw [hprofile, attempts_halfReadable]) (by rw [hprofile, attempts_halfReadable]; rfl) rfl
  exact h.1

/-! ## Integers with too many digits -/

/-- The source of a call whose one argument is written with the given digits. -/
def callWith (digits : List Char) : String :=
  "Text(" ++ String.ofList digits ++ ")"

theorem toList_callWith (digits : List Char) :
    (callWith digits).toList = ['T', 'e', 'x', 't'] ++ '(' :: (digits ++ [')']) := by
  simp [callWith]

theorem tokenize_callWith (p : Profile) {digits : List Char} (h : Text.isNumeral digits) :
    tokenize p (callWith digits) =
      [⟨.identifier, "Text", 0⟩, ⟨.symbol, "(", 4⟩, ⟨.number, String.ofList digits, 5⟩,
        ⟨.symbol, ")", 5 + digits.length⟩, .endOfText (6 + digits.length)] := by
  have hopens : Stops p .identifier ('(' :: (digits ++ [')'])) := by
    simpa [Stops] using (class_of_symbol (c := '(') (by decide)).2.2.2 p
  have hcloses : Stops p .number [')'] := by
    simpa [Stops] using (class_of_symbol (c := ')') (by decide)).2.2.1
  have hidentifier : p.isIdentifier ['T', 'e', 'x', 't'] := by cases p <;> decide
  obtain ⟨c, s, hname, hread⟩ := read_identifier hidentifier hopens
  obtain ⟨c', s', hnumber, hread'⟩ := read_number p h (fun d hd => ((hcloses d hd).2 rfl).1)
    (fraction_of_stops hcloses)
  rw [tokenize, toList_callWith, hname, tokensFrom_of_read_token hread,
    tokensFrom_of_read_token (read_symbol p (by decide) _), hnumber,
    tokensFrom_of_read_token hread', tokensFrom_of_read_token (read_symbol p (by decide) _),
    tokensFrom_nil]
  simp [Nat.add_comm, Nat.add_left_comm]

theorem oversized_numeral {digits : List Char} (h : Text.isNumeral digits)
    (hlong : Literal.maxIntegerDigits < digits.length) (position : Nat) :
    Oversized digits.length ⟨.number, String.ofList digits, position⟩ := by
  simp only [Text.isNumeral, Bool.and_eq_true] at h
  refine ⟨rfl, ?_, by simp, hlong⟩
  rw [String.toList_ofList]
  intro hmem
  have hpoint := List.all_eq_true.mp h.2 '.' hmem
  revert hpoint
  decide

/-- A component whose first argument is an integer with too many digits makes the survey end. -/
theorem givesUp_of_oversized (ctx : Context) {name opening number : Token} {digits : Nat}
    (hname : name.kind = .identifier) (hopening : opening.isSymbol "(")
    (hnumber : Oversized digits number) (ts : List Token) :
    GivesUp ctx (name :: opening :: number :: ts) (.oversizedInteger digits) := by
  have hread := (readNumber_eq_error_iff hnumber.1).mpr hnumber
  have hargument : argument ctx.profile (number :: ts) = .error (.oversizedInteger digits) := by
    rw [argument, negated?_eq_none (by simp [hnumber.1])]
    simp only [hnumber.1, numeral, hread]
  have hcloses : number.isSymbol ")" = false :=
    Token.isSymbol_of_kind_ne (by simp [hnumber.1]) _
  refine .oversizedInteger ?_
  rw [maxDepth, component, identifier_cons hname]
  simp only [argumentPart, eat?, hopening, if_true, argumentList, hcloses, Bool.false_eq_true,
    if_false]
  have harguments : arguments ctx.profile (number :: ts) = .error (.oversizedInteger digits) := by
    rw [arguments, hargument]
  simp only [harguments]

/-- A call with an integer that has too many digits is not read. -/
theorem parse_callWith {digits : List Char} (h : Text.isNumeral digits)
    (hlong : Literal.maxIntegerDigits < digits.length) (filename : String) :
    parse (callWith digits) filename = .error ⟨digits.length⟩ := by
  have hstarts (p : Profile) (number : Token) (ts : List Token) : startsAtTop p none
      (⟨.identifier, "Text", 0⟩ :: ⟨.symbol, "(", 4⟩ :: number :: ts) := by
    cases p <;> rfl
  rw [parse, Survey.ofSource, tokenize_callWith _ h, survey_halted (hstarts _ _ _)
    (givesUp_of_oversized _ rfl rfl (oversized_numeral h hlong _) _), Survey.forest]

/-- Reading does not always succeed: `Text(1…1)` with 4301 digits is not read. -/
theorem parse_callWith_ones :
    parse (callWith (List.replicate 4301 '1')) "" = .error ⟨4301⟩ := by
  have hlength : (List.replicate 4301 '1').length = 4301 := List.length_replicate
  have hnumeral : Text.isNumeral (List.replicate 4301 '1') := by
    rw [Text.isNumeral, List.all_replicate]
    decide
  have h := parse_callWith hnumeral (by rw [hlength]; decide) ""
  rwa [hlength] at h

end Parser

end UiMarkup
