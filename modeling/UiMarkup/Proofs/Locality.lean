import UiMarkup.Proofs.Recovery
import UiMarkup.Proofs.Seams

/-!
# Reading is local

Where a text stands before another one, reading finds in each what it finds in it alone: an error in
the first one does not change what is found in the second one.

* `yields_right`, `givesUp_right`: an attempt on one side of a seam and on the other.
* `Continues S k s t s'`: the survey `s'` is the survey `s` and, from the seam on, the survey `t`.
* `survey_right`: surveys go on over a seam that way.
* `Apart p a b`: the texts `a` and `b` do not run into each other. Then there are two seams:
  `between` has the tokens of `b` in place of the end of `a`, and `atEnd` is the end of `b` after
  `a`.
-/

namespace UiMarkup

namespace Parser

section
variable {S : Seam} {us : List Token}

/-! ## Attempts -/

theorem startsAtTop_cons (p : Profile) (previous : Option Token) (name : Token)
    (ts : List Token) :
    startsAtTop p previous (name :: ts) =
      (namesComponent p name && !previous.any precludesComponent && (current ts).opensCall) := by
  cases ts with
  | nil => exact (Bool.and_false _).symm
  | cons t ts => rfl

theorem startsAtTop_right {previous previous' : Option Token} (hne : us ≠ [])
    (hprevious : previous'.any precludesComponent = previous.any precludesComponent) :
    startsAtTop S.after.profile previous' (S.right us) =
      startsAtTop S.before.profile previous (S.left us) := by
  obtain ⟨name, us, rfl⟩ := List.exists_cons_of_ne_nil hne
  rw [S.right_cons, S.left_cons, startsAtTop_cons, startsAtTop_cons, hprevious,
    S.opensCall_current_right, S.profile_eq]
  rfl

/-- An attempt comes to the same on both sides of the seam, unless it fails at the end token. -/
theorem yields_right {outcome : Outcome} {rest : List Token} (hfits : S.Fits us)
    (h : Yields S.before (S.left us) outcome rest) :
    (∃ us', us' <:+ us ∧ rest = S.left us' ∧
      Yields S.after (S.right us) (outcome.moved S.shift S.lines) (S.right us')) ∨
    S.tail ≠ [S.stop.shift S.shift] ∧ rest = [S.stop] ∧
      ∃ d, outcome = .dropped d ∧ d.position = S.stop.position := by
  have hmirrors := mirrors_component maxDepth hfits
  cases h with
  | node h =>
    obtain ⟨us', hs, rfl, h'⟩ := hmirrors.read h
    exact .inl ⟨us', hs, rfl, .node h'⟩
  | @dropped f h =>
    rw [h] at hmirrors
    generalize hr : component S.after maxDepth (S.right us) = r' at hmirrors
    cases hmirrors with
    | failure hs hp =>
      refine .inl ⟨_, hs, rfl, ?_⟩
      have hyields := Yields.dropped hr
      simp only [S.locate_eq _ hp] at hyields
      exact hyields
    | atEnd htail => exact .inr ⟨htail, rfl, _, rfl, rfl⟩

/-- A survey that is given up before the end token is given up on the other side, too, for the same
reason or because components nest too deeply. -/
theorem givesUp_right {halt : Halt} (hfits : S.Fits us) (h : GivesUp S.before (S.left us) halt) :
    ∃ halt', GivesUp S.after (S.right us) halt' ∧
      (halt' = halt ∨ ∃ position, halt' = .tooDeep position) := by
  have hmirrors := mirrors_component maxDepth hfits
  cases h with
  | tooDeep h =>
    rw [h] at hmirrors
    generalize hr : component S.after maxDepth (S.right us) = r' at hmirrors
    cases hmirrors with
    | tooDeep => exact ⟨_, .tooDeep hr, .inr ⟨_, rfl⟩⟩
  | oversizedInteger h =>
    rw [h] at hmirrors
    generalize hr : component S.after maxDepth (S.right us) = r' at hmirrors
    cases hmirrors with
    | oversized => exact ⟨_, .oversizedInteger hr, .inl rfl⟩

/-! ## Surveys -/

/-- How the survey `s'` goes on where the survey `s` reaches the end token, if `t` is what it finds
from there on. -/
inductive Continues (S : Seam) (k : Nat) (s t : Survey) : Survey → Prop where
  | through (h : s.halt = none) :
      Continues S k s t ⟨s.attempts.map (Attempt.moved k S.shift S.lines) ++ t.attempts, t.halt⟩
  | halted {halt halt' : Halt} {s' : Survey} (h : s.halt = some halt) (h' : s'.halt = some halt')
      (hsame : halt' = halt ∨ ∃ position, halt' = .tooDeep position) : Continues S k s t s'

theorem Continues.cons {k : Nat} {s t s' : Survey} (h : Continues S k s t s') (a : Attempt) :
    Continues S k ⟨a :: s.attempts, s.halt⟩ t
      ⟨a.moved k S.shift S.lines :: s'.attempts, s'.halt⟩ := by
  cases h with
  | through h => exact .through h
  | halted h h' hsame => exact .halted h h' hsame

theorem Continues.through_or_oversized {k : Nat} {s t s' : Survey} (h : Continues S k s t s')
    (hdepth : ∀ position, s'.halt ≠ some (.tooDeep position)) :
    (s.halt = none ∧
      s' = ⟨s.attempts.map (Attempt.moved k S.shift S.lines) ++ t.attempts, t.halt⟩) ∨
    ∃ digits, s.halt = some (.oversizedInteger digits) ∧
      s'.halt = some (.oversizedInteger digits) := by
  cases h with
  | through h => exact .inl ⟨h, rfl⟩
  | @halted halt halt' s' h h' hsame =>
    rcases hsame with rfl | ⟨position, rfl⟩
    · cases halt' with
      | tooDeep position => exact absurd h' (hdepth position)
      | oversizedInteger digits => exact .inr ⟨digits, h, h'⟩
    · exact absurd h' (hdepth position)

/-- The last token before the seam, if some tokens have been taken. -/
theorem getLast?_map_append {used : List Token} (hne : used ≠ []) (f : Token → Token)
    (us : List Token) (previous : Option Token) :
    ((used ++ us).map f).getLast?.or previous = (us.map f).getLast?.or (used.map f).getLast? := by
  have hlast : (used.map f).getLast? ≠ none := by simpa using hne
  obtain ⟨last, hlast⟩ := Option.ne_none_iff_exists'.mp hlast
  rw [List.map_append, List.getLast?_append, Option.or_assoc, hlast, Option.some_or]

theorem any_precludes_shift (n : Nat) (previous : Option Token) :
    (previous.map (Token.shift n)).any precludesComponent = previous.any precludesComponent := by
  cases previous <;> rfl

theorem mem_diagnostics_cons {s : Survey} {d : Diagnostic} (h : d ∈ s.diagnostics) (a : Attempt) :
    d ∈ Survey.diagnostics ⟨a :: s.attempts, s.halt⟩ := by
  obtain ⟨b, hb, hd⟩ := List.mem_filterMap.mp h
  exact List.mem_filterMap.mpr ⟨b, List.mem_cons_of_mem a hb, hd⟩

section
variable {index : Nat} {previous previous' : Option Token}

/-- A token that is skipped before the end token is skipped on the other side, too. -/
theorem survey_right_skip {t : Token} (hk : t.kind ≠ .eof)
    (hs : startsAtTop S.before.profile previous (S.left (t :: us)) = false)
    (hprevious : previous'.any precludesComponent = previous.any precludesComponent) :
    survey S.after index previous' (S.right (t :: us)) =
      survey S.after (index + 1) (some (t.shift S.shift)) (S.right us) := by
  have hk' : (t.shift S.shift).kind ≠ .eof := hk
  have hs' := (startsAtTop_right (List.cons_ne_nil t us) hprevious).trans hs
  rw [S.right_cons] at hs' ⊢
  exact survey_skip hk' hs'

/-- An attempt that is made before the end token is made on the other side, too. -/
theorem survey_right_attempt {used : List Token} {outcome : Outcome} (hne : used ≠ [])
    (hs : startsAtTop S.before.profile previous (S.left (used ++ us)))
    (hy : Yields S.after (S.right (used ++ us)) outcome (S.right us))
    (hprevious : previous'.any precludesComponent = previous.any precludesComponent) :
    survey S.after index previous' (S.right (used ++ us)) =
      ⟨⟨index, index + used.length, outcome⟩ ::
          (survey S.after (index + used.length) (used.map (Token.shift S.shift)).getLast?
            (S.right us)).attempts,
        (survey S.after (index + used.length) (used.map (Token.shift S.shift)).getLast?
          (S.right us)).halt⟩ := by
  have hne' : used.map (Token.shift S.shift) ≠ [] := by simpa using hne
  have hs' := (startsAtTop_right (List.append_ne_nil_of_left_ne_nil hne us) hprevious).trans hs
  rw [S.right_append] at hs' hy ⊢
  rw [survey_attempt hs' hne' hy, List.length_map]

end

/-- A survey over the seam is one up to the seam and one from there on. -/
theorem survey_right {index index' k : Nat} {previous previous' : Option Token} {s : Survey}
    (h : Surveyed S.before index previous (S.left us) s) (hindex : index' = index + k)
    (hfits : S.Fits us)
    (hprevious : previous'.any precludesComponent = previous.any precludesComponent)
    (hend : s.halt = none → ∀ d ∈ s.diagnostics, d.position = S.stop.position →
      S.tail = [S.stop.shift S.shift]) :
    Continues S k s
      (survey S.after (index' + us.length)
        ((us.map (Token.shift S.shift)).getLast?.or previous') S.tail)
      (survey S.after index' previous' (S.right us)) := by
  generalize hts : S.left us = ts at h
  induction h generalizing us index' previous' with
  | @done index previous ts hcurrent =>
    subst hts
    cases us with
    | cons t us => exact absurd hcurrent (hfits.kind t List.mem_cons_self)
    | nil => exact .through rfl
  | @skip index previous t ts s hk hs _ ih =>
    cases us with
    | nil =>
      obtain ⟨rfl, -⟩ := List.cons.inj hts
      exact absurd S.kind_stop hk
    | cons t' us =>
      obtain ⟨rfl, rfl⟩ := List.cons.inj hts
      have hrest := @ih us (index' + 1) (some (t'.shift S.shift)) (by omega) hfits.tail rfl hend rfl
      have hlast := getLast?_map_append (List.cons_ne_nil t' []) (Token.shift S.shift) us previous'
      rw [List.singleton_append] at hlast
      rw [survey_right_skip hk hs hprevious, hlast, List.length_cons, Nat.add_comm us.length,
        ← Nat.add_assoc]
      exact hrest
  | @attempt index previous used rest outcome s hs hne hy h ih =>
    rw [← hts] at hs hy
    rcases yields_right hfits hy with ⟨us', ⟨used', rfl⟩, rfl, hy'⟩ | ⟨htail, rfl, d, rfl, hd⟩
    · rw [S.left_append] at hts
      obtain rfl := List.append_cancel_right hts
      have hrest := @ih us' (index' + used'.length) (used'.map (Token.shift S.shift)).getLast?
        (by omega) (hfits.mono (List.suffix_append used' us'))
        (by rw [List.getLast?_map, any_precludes_shift])
        (fun hhalt d hd => hend hhalt d (mem_diagnostics_cons hd _)) rfl
      have hmoved : Attempt.moved k S.shift S.lines ⟨index, index + used'.length, outcome⟩ =
          ⟨index', index' + used'.length, outcome.moved S.shift S.lines⟩ := by
        rw [Attempt.moved, hindex, Nat.add_right_comm]
      rw [survey_right_attempt hne hs hy' hprevious, getLast?_map_append hne, List.length_append,
        ← Nat.add_assoc, ← hmoved]
      exact hrest.cons _
    · -- Nothing comes after a failure at the end token, so its diagnostic is one of a whole survey.
      have hcurrent : (current [S.stop]).kind = .eof := S.kind_stop
      have hdone := (survey_done hcurrent).symm.trans h.eq
      subst hdone
      exact absurd (hend rfl d List.mem_cons_self hd) htail
  | @halted index previous ts halt hs h =>
    subst hts
    obtain ⟨halt', h', hsame⟩ := givesUp_right hfits h
    have hne : us ≠ [] := by
      rintro rfl
      cases hs
    rw [survey_halted ((startsAtTop_right hne hprevious).trans hs) h']
    exact .halted rfl rfl hsame

end

/-! ## Sources -/

/-- The texts `a` and `b`, one after the other, do not run into each other. -/
structure Apart (p : Profile) (a b : String) : Prop where
  /-- The text `a` consists of whole lines. -/
  lines : a = "" ∨ a.toList.getLast? = some '\n'
  /-- No token, blank or comment reaches from `a` into `b`. -/
  tokens : tokenize p (a ++ b) =
    (tokenize p a).dropLast ++ (tokenize p b).map (Token.shift a.length)
  /-- The last token of `a` does not want to be continued. -/
  last : ∀ t ∈ (tokenize p a).dropLast.getLast?, ¬ t.isSymbol "." ∧
    ¬ (t.kind = .unknown ∧ t.text = "-") ∧
    ¬ (t.kind = .identifier ∧ t.text ∈ declarationKeywords)
  /-- The first token of `b` does not continue a component. -/
  first : ∀ t ∈ (tokenize p b).head?, ¬ t.isSymbol "." ∧ ¬ t.isSymbol "(" ∧ ¬ t.isSymbol "\x7b"

theorem exists_tokenize_eq (p : Profile) (source : String) :
    ∃ us, tokenize p source = us ++ [.endOfText source.length] ∧
      ∀ t ∈ us, t.kind ≠ .eof ∧ t.position ≤ source.length := by
  obtain ⟨us, hus, hkinds⟩ := exists_tokensFrom_eq p 0 source.toList
  have hincreasing := tokensFrom_increasing p 0 source.toList
  rw [Nat.zero_add, String.length_toList] at hus
  rw [hus, List.pairwise_append] at hincreasing
  refine ⟨us, hus, fun t ht => ⟨hkinds t ht, Nat.le_of_lt ?_⟩⟩
  exact hincreasing.2.2 t ht _ (List.mem_singleton_self _)

namespace Apart

variable {p : Profile} {a b : String}

theorem eq_newline (h : Apart p a b) : ∀ c ∈ a.toList.getLast?, c = '\n' := by
  rcases h.lines with rfl | hlast
  · simp
  · rw [hlast]
    exact fun c hc => (Option.some.inj hc).symm

theorem current_tail (h : Apart p a b) :
    (current ((tokenize p b).map (Token.shift a.length))).isSymbol "." = false ∧
      (current ((tokenize p b).map (Token.shift a.length))).opensCall = false := by
  have hfirst := h.first
  cases hts : tokenize p b with
  | nil => exact ⟨rfl, rfl⟩
  | cons t ts =>
    rw [hts] at hfirst
    obtain ⟨hdot, hparen, hbrace⟩ := hfirst t rfl
    rw [Bool.not_eq_true] at hdot hparen hbrace
    exact ⟨hdot, by simp [current, Token.opensCall, hparen, hbrace]⟩

/-- The seam between the texts: the tokens of `b` stand in place of the end of `a`. -/
def between (h : Apart p a b) : Seam where
  before := .ofSource p a
  after := .ofSource p (a ++ b)
  shift := 0
  lines := 0
  stop := .endOfText a.length
  tail := (tokenize p b).map (Token.shift a.length)
  profile_eq := rfl
  locate_eq offset hle := by
    rw [Place.down_zero]
    simp only [Context.ofSource, String.toList_append, Nat.add_zero]
    exact Place.ofOffset_append_left _ _ (hle.trans_eq String.length_toList.symm)
  kind_stop := rfl
  dot_tail := h.current_tail.1
  opensCall_tail := h.current_tail.2

/-- The end of `b` where it stands after `a`. -/
def atEnd (h : Apart p a b) : Seam where
  before := .ofSource p b
  after := .ofSource p (a ++ b)
  shift := a.length
  lines := a.toList.count '\n'
  stop := .endOfText b.length
  tail := [(Token.endOfText b.length).shift a.length]
  profile_eq := rfl
  locate_eq offset _ := by
    simp only [Context.ofSource, String.toList_append, ← String.length_toList]
    exact Place.ofOffset_append_right h.eq_newline _ offset
  kind_stop := rfl
  dot_tail := rfl
  opensCall_tail := rfl

/-- Surveying both texts is surveying `a` and then `b` from where it stands. -/
theorem continues_between (h : Apart p a b)
    (hend : (Survey.ofSource p a).halt = none →
      ∀ d ∈ (Survey.ofSource p a).diagnostics, d.position ≠ a.length) :
    Continues h.between 0 (Survey.ofSource p a)
      (survey (.ofSource p (a ++ b)) (tokenize p a).dropLast.length
        (tokenize p a).dropLast.getLast? ((tokenize p b).map (Token.shift a.length)))
      (Survey.ofSource p (a ++ b)) := by
  obtain ⟨us, hus, htokens⟩ := exists_tokenize_eq p a
  have hdrop : (tokenize p a).dropLast = us := by rw [hus, List.dropLast_concat]
  have hlast := h.last
  have hsurveyed := surveyed_source p a
  rw [hdrop] at hlast ⊢
  rw [hus] at hsurveyed
  have hshift : us.map (Token.shift h.between.shift) = us := List.map_id us
  have hright : h.between.right us = tokenize p (a ++ b) := by
    rw [h.tokens, hdrop, Seam.right, hshift]
    rfl
  have hseam (t : Token) (ht : [t] <:+ us) : us.getLast? = some t := by
    obtain ⟨us', rfl⟩ := ht
    simp
  have hfits : h.between.Fits us :=
    ⟨fun t ht => (htokens t ht).1, fun t ht => (htokens t ht).2,
      fun t ht hdot => absurd hdot (hlast t (hseam t ht)).1,
      fun t ht hk htext => absurd ⟨hk, htext⟩ (hlast t (hseam t ht)).2.1⟩
  have hprevious : (none : Option Token).any precludesComponent = none.any precludesComponent := rfl
  have hcontinues := survey_right (S := h.between) (k := 0) hsurveyed rfl hfits hprevious
    fun hhalt d hd hposition => absurd hposition (hend hhalt d hd)
  rw [hright, hshift, Option.or_none, Nat.zero_add] at hcontinues
  exact hcontinues

/-- The survey of `b` goes the same way where `b` stands after `a`. -/
theorem continues_atEnd (h : Apart p a b) :
    Continues h.atEnd (tokenize p a).dropLast.length (Survey.ofSource p b) ⟨[], none⟩
      (survey (.ofSource p (a ++ b)) (tokenize p a).dropLast.length
        (tokenize p a).dropLast.getLast? ((tokenize p b).map (Token.shift a.length))) := by
  obtain ⟨us, hus, htokens⟩ := exists_tokenize_eq p b
  have hsurveyed := surveyed_source p b
  rw [hus] at hsurveyed
  have hright : h.atEnd.right us = (tokenize p b).map (Token.shift a.length) := by
    rw [hus, List.map_append]
    rfl
  have hfits : h.atEnd.Fits us :=
    ⟨fun t ht => (htokens t ht).1, fun t ht => (htokens t ht).2, fun _ _ _ => nofun,
      fun _ _ _ _ => nofun⟩
  have hprevious : (tokenize p a).dropLast.getLast?.any precludesComponent = false := by
    cases hl : (tokenize p a).dropLast.getLast? with
    | none => rfl
    | some t =>
      obtain ⟨hdot, -, hkeyword⟩ := h.last t hl
      simp only [Option.any_some, precludesComponent, Bool.or_eq_false_iff]
      exact ⟨by simpa using hdot, by simpa using hkeyword⟩
  have hcontinues := survey_right (S := h.atEnd) (k := (tokenize p a).dropLast.length) hsurveyed
    (Nat.zero_add _).symm hfits hprevious fun _ _ _ _ => rfl
  have htail : (current h.atEnd.tail).kind = .eof := rfl
  rw [hright, survey_done htail] at hcontinues
  exact hcontinues

end Apart

theorem forest_moved_append (source : String) (k n lines : Nat) (s t : Survey) :
    Survey.forest source ⟨s.attempts.map (Attempt.moved k n lines) ++ t.attempts, none⟩ =
      .ok (Forest.moved n lines ⟨s.nodes, s.diagnostics⟩ ++ ⟨t.nodes, t.diagnostics⟩) := by
  rw [Survey.forest_of_halt_eq_none rfl, Survey.nodes_append, Survey.diagnostics_append,
    Survey.nodes_moved, Survey.diagnostics_moved]
  rfl

/-- **Reading is local.** If two texts do not run into each other, no component is cut off at the
end of the first one and the components do not nest too deeply, then reading both gives what is in
the first one, followed by what is in the second one at greater offsets and on lower lines. -/
theorem parse_append_apart (a b filename : String) (hapart : Apart (.ofFilename filename) a b)
    (hend : ∀ forest, parse a filename = .ok forest →
      ∀ d ∈ forest.diagnostics, d.position ≠ a.length)
    (hdepth : ∀ position,
      (Survey.ofSource (.ofFilename filename) (a ++ b)).halt ≠ some (.tooDeep position)) :
    parse (a ++ b) filename = do
      let forest ← parse a filename
      let forest' ← parse b filename
      return forest ++ forest'.moved a.length (a.toList.count '\n') := by
  have hbetween := hapart.continues_between fun hhalt =>
    hend _ (Survey.forest_of_halt_eq_none hhalt a)
  have hatEnd := hapart.continues_atEnd
  generalize survey _ _ _ _ = t at hbetween hatEnd
  simp only [parse]
  rcases hbetween.through_or_oversized hdepth with ⟨hhalt, hsurvey⟩ | ⟨digits, hhalt, hhalt'⟩
  · have hhalts : (Survey.ofSource (.ofFilename filename) (a ++ b)).halt = t.halt := by rw [hsurvey]
    rw [hhalts] at hdepth
    rcases hatEnd.through_or_oversized hdepth with ⟨hhalt', rfl⟩ | ⟨digits, hhalt', hhalt''⟩
    · have hzero (forest : Forest) :
          forest.moved hapart.between.shift hapart.between.lines = forest := forest.moved_zero
      rw [hsurvey, forest_moved_append, hzero, Survey.forest_of_halt_eq_none hhalt,
        Survey.forest_of_halt_eq_none hhalt', List.append_nil, Survey.nodes_moved,
        Survey.diagnostics_moved]
      rfl
    · rw [Survey.forest_of_halt_oversized (hhalts.trans hhalt''),
        Survey.forest_of_halt_eq_none hhalt, Survey.forest_of_halt_oversized hhalt']
      rfl
  · rw [Survey.forest_of_halt_oversized hhalt, Survey.forest_of_halt_oversized hhalt']
    rfl

/-- Two lines: a component that is dropped, and one that is read. -/
def wholeLines : String := "Text(=)\nText(a)\n"

/-- A component that is read, and one that is cut off. -/
def cutOff : String := "Text(b)\nText("

theorem tokenize_wholeLines :
    tokenize .plain wholeLines =
      [⟨.identifier, "Text", 0⟩, ⟨.symbol, "(", 4⟩, ⟨.unknown, "=", 5⟩, ⟨.symbol, ")", 6⟩,
        ⟨.identifier, "Text", 8⟩, ⟨.symbol, "(", 12⟩, ⟨.identifier, "a", 13⟩, ⟨.symbol, ")", 14⟩,
        ⟨.eof, "", 16⟩] := by
  decide +kernel

theorem tokenize_cutOff :
    tokenize .plain cutOff =
      [⟨.identifier, "Text", 0⟩, ⟨.symbol, "(", 4⟩, ⟨.identifier, "b", 5⟩, ⟨.symbol, ")", 6⟩,
        ⟨.identifier, "Text", 8⟩, ⟨.symbol, "(", 12⟩, ⟨.eof, "", 13⟩] := by
  decide +kernel

theorem survey_wholeLines :
    Survey.ofSource .plain wholeLines =
      ⟨[⟨0, 2, .dropped ⟨.unexpectedArgument "=", 5, ⟨1, 6⟩⟩⟩,
        ⟨4, 8, .node ⟨"Text", [.reference "a"], [], [], ⟨2, 1⟩⟩⟩], none⟩ := by
  rw [Survey.ofSource, tokenize_wholeLines]
  with_unfolding_all rfl

theorem survey_cutOff :
    Survey.ofSource .plain cutOff =
      ⟨[⟨0, 4, .node ⟨"Text", [.reference "b"], [], [], ⟨1, 1⟩⟩⟩,
        ⟨4, 6, .dropped ⟨.argumentMissing, 13, ⟨2, 6⟩⟩⟩], none⟩ := by
  rw [Survey.ofSource, tokenize_cutOff]
  with_unfolding_all rfl

theorem apart_wholeLines_cutOff : Apart .plain wholeLines cutOff where
  lines := by decide +kernel
  tokens := by decide +kernel
  last := by decide +kernel
  first := by decide +kernel

theorem parse_append_apart_wholeLines_cutOff :
    Apart .plain wholeLines cutOff ∧
      parse (wholeLines ++ cutOff) "" =
        .ok ⟨[⟨"Text", [.reference "a"], [], [], ⟨2, 1⟩⟩, ⟨"Text", [.reference "b"], [], [], ⟨3, 1⟩⟩],
          [⟨.unexpectedArgument "=", 5, ⟨1, 6⟩⟩, ⟨.argumentMissing, 29, ⟨4, 6⟩⟩]⟩ := by
  have hprofile : Profile.ofFilename "" = .plain := by decide
  have hhalt : (Survey.ofSource (.ofFilename "") (wholeLines ++ cutOff)).halt = none := by
    decide +kernel
  have hfirst : parse wholeLines "" =
      .ok ⟨[⟨"Text", [.reference "a"], [], [], ⟨2, 1⟩⟩],
        [⟨.unexpectedArgument "=", 5, ⟨1, 6⟩⟩]⟩ := by
    rw [parse, hprofile, survey_wholeLines]
    rfl
  have hsecond : parse cutOff "" =
      .ok ⟨[⟨"Text", [.reference "b"], [], [], ⟨1, 1⟩⟩], [⟨.argumentMissing, 13, ⟨2, 6⟩⟩]⟩ := by
    rw [parse, hprofile, survey_cutOff]
    rfl
  refine ⟨apart_wholeLines_cutOff, ?_⟩
  have hend (forest : Forest) (hforest : parse wholeLines "" = .ok forest) :
      ∀ d ∈ forest.diagnostics, d.position ≠ wholeLines.length := by
    rw [hfirst] at hforest
    cases hforest
    decide +kernel
  rw [parse_append_apart wholeLines cutOff "" (hprofile ▸ apart_wholeLines_cutOff) hend
    (by simp [hhalt]), hfirst, hsecond]
  cbv

end Parser

end UiMarkup
