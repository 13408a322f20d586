import UiMarkup.Proofs.NameTokens
import UiMarkup.Proofs.Recovery
import UiMarkup.Proofs.Relocation

/-!
# Places lead back to offsets

The place of an offset names a line of the source and a character of that line, or its end, and the
offset can be computed from it again. Places are ordered as offsets are. So the components of a
source, which have the places of their names, are placed in preorder, and a diagnostic is placed
where it is reported.

* `Place.LeadsTo source p offset`: the place `p`, read in terms of the lines of the source.
* `leadsTo_ofOffset`: the place of an offset leads to the offset.
* `before_of_lt`: a later offset has a later place.
* `places_lead_to_names_and_reports`: what this says about the forest of a source.
-/

namespace UiMarkup

namespace Place

/-! ## Lines and columns -/

/-- The offset at which a line starts, by its number, counted from zero. Each line before it has its
characters and a line end. -/
def lineStart : List (List Char) → Nat → Nat
  | line :: lines, i + 1 => line.length + 1 + lineStart lines i
  | _, _ => 0

/-- The place leads to the offset: it names a line of the source, its column is that of a character
of the line or of its end, and the offset is as far from the start of the line as the
column says. -/
def LeadsTo (source : List Char) (p : Place) (offset : Nat) : Prop :=
  ∃ (i k : Nat) (line : List Char), p = ⟨i + 1, k + 1⟩ ∧
    (source.splitOn '\n')[i]? = some line ∧ k ≤ line.length ∧
    lineStart (source.splitOn '\n') i + k = offset

/-- Within a line, the column counts the characters. -/
theorem foldl_step_line (p : Place) {s : List Char} (h : '\n' ∉ s) :
    s.foldl step p = ⟨p.line, p.column + s.length⟩ := by
  induction s generalizing p with
  | nil => simp
  | cons c s ih =>
    obtain ⟨hc, hs⟩ := not_or.mp (List.mem_cons.not.mp h)
    rw [List.foldl_cons, ih _ hs, step, if_neg (Ne.symm hc), List.length_cons]
    simp only [Place.mk.injEq, true_and]
    omega

theorem ofOffset_of_line {line : List Char} (h : '\n' ∉ line) (s : List Char) {offset : Nat}
    (hle : offset ≤ line.length) : ofOffset (line ++ s) offset = ⟨1, offset + 1⟩ := by
  have htake : '\n' ∉ line.take offset := fun hmem => h (List.mem_of_mem_take hmem)
  rw [ofOffset_append_left _ _ hle, ofOffset, foldl_step_line _ htake,
    List.length_take_of_le hle, start, Int.add_comm]

theorem leadsTo_first_line {source line : List Char} {lines : List (List Char)} {offset : Nat}
    (hlines : source.splitOn '\n' = line :: lines) (hle : offset ≤ line.length) :
    LeadsTo source ⟨1, offset + 1⟩ offset :=
  ⟨0, offset, line, by simp, by simp [hlines], hle, by simp [lineStart]⟩

/-- A place in what follows the first line, seen from the first line. -/
theorem LeadsTo.down {source line : List Char} {p : Place} {offset : Nat}
    (h : LeadsTo source p offset) (hline : '\n' ∉ line) :
    LeadsTo (line ++ '\n' :: source) (p.down 1) (offset + (line.length + 1)) := by
  obtain ⟨i, k, current, rfl, hcurrent, hle, rfl⟩ := h
  have hlines := List.splitOn_append_cons_self_of_not_mem hline source
  refine ⟨i + 1, k, current, by simp [Place.down], by simp [hlines, hcurrent], hle, ?_⟩
  simp only [hlines, lineStart]
  omega

/-- The place of an offset leads to the offset. -/
theorem leadsTo_ofOffset (source : List Char) {offset : Nat} (h : offset ≤ source.length) :
    LeadsTo source (ofOffset source offset) offset := by
  -- by induction along the lines: the text is one line, or a line with a text after it
  induction hn : source.length using Nat.strong_induction_on generalizing source offset with
  | h n ih =>
    subst hn
    by_cases hmem : '\n' ∈ source
    · obtain ⟨line, rest, rfl, hline⟩ := List.eq_append_cons_of_mem hmem
      by_cases hle : offset ≤ line.length
      · rw [ofOffset_of_line hline _ hle]
        exact leadsTo_first_line (List.splitOn_append_cons_self_of_not_mem hline rest) hle
      · simp only [List.length_append, List.length_cons] at h ih
        obtain ⟨further, rfl⟩ : ∃ further, offset = further + (line.length + 1) :=
          ⟨offset - (line.length + 1), by omega⟩
        have hplace := ofOffset_append_right (s := line ++ ['\n']) (by simp) rest further
        rw [List.append_assoc, List.singleton_append, List.count_append,
          List.count_eq_zero_of_not_mem hline, List.count_singleton_self, List.length_append,
          List.length_singleton, Nat.zero_add] at hplace
        have hrest : LeadsTo rest (ofOffset rest further) further :=
          ih rest.length (by omega) rest (by omega) rfl
        rw [hplace]
        exact hrest.down hline
    · rw [← List.append_nil source, ofOffset_of_line hmem _ h, List.append_nil]
      exact leadsTo_first_line (List.splitOn_eq_singleton hmem) h

/-- The first place is on an earlier line, or on the same line in an earlier column. -/
def Before (p q : Place) : Prop :=
  p.line < q.line ∨ p.line = q.line ∧ p.column < q.column

theorem Before.trans {p q r : Place} (h : Before p q) (h' : Before q r) : Before p r := by
  unfold Before at *
  omega

/-- One more character leads to a later place. -/
theorem before_step (p : Place) (c : Char) : Before p (p.step c) := by
  unfold step
  split
  · exact .inl (Int.lt_succ p.line)
  · exact .inr ⟨rfl, Int.lt_succ p.column⟩

theorem ofOffset_succ {source : List Char} {offset : Nat} (h : offset < source.length) :
    ofOffset source (offset + 1) = (ofOffset source offset).step source[offset] := by
  rw [ofOffset, List.take_succ_eq_append_getElem h, List.foldl_append]
  rfl

/-- A later offset has a later place. -/
theorem before_of_lt {source : List Char} {a b : Nat} (hlt : a < b) (hb : b ≤ source.length) :
    Before (ofOffset source a) (ofOffset source b) := by
  induction b, hlt using Nat.le_induction with
  | base =>
    rw [ofOffset_succ hb]
    exact before_step _ _
  | succ b hab ih =>
    rw [ofOffset_succ hb]
    exact (ih (Nat.le_of_succ_le hb)).trans (before_step _ _)

end Place

/-! ## Offsets of tokens -/

/-- No token stands beyond the end of the source. -/
theorem position_le_length {p : Profile} {source : String} {t : Token}
    (h : t ∈ tokenize p source) : t.position ≤ source.toList.length := by
  obtain ⟨ts, hts, -⟩ := exists_tokensFrom_eq p 0 source.toList
  have hordered := tokensFrom_increasing p 0 source.toList
  rw [tokenize, hts] at h
  rw [hts, List.pairwise_append] at hordered
  rcases List.mem_append.mp h with h | h
  · have hlt := hordered.2.2 t h _ (List.mem_singleton_self _)
    simpa [Token.endOfText] using Nat.le_of_lt hlt
  · obtain rfl := List.mem_singleton.mp h
    simp [Token.endOfText]

namespace Parser

/-! ## Where components nest too deeply -/

/-- Reading did not find components nested too deeply. -/
def Shallow {α : Type} (r : Step α) : Prop :=
  ∀ position, r ≠ .error (.tooDeep position)

theorem Shallow.of_error {α β : Type} {r : Step α} {stop : Stop} (h : Shallow r)
    (hr : r = .error stop) : Shallow (.error stop : Step β) := by
  subst hr
  intro position heq
  exact h position (congrArg Except.error (Except.error.inj heq))

theorem shallow_ok {α : Type} (x : α × List Token) : Shallow (.ok x : Step α) :=
  nofun

theorem shallow_failure {α : Type} (f : Failure) : Shallow (.error (.failure f) : Step α) :=
  nofun

theorem shallow_fail {α : Type} (cause : Cause) (ts : List Token) :
    Shallow (fail cause ts : Step α) :=
  shallow_failure _

theorem shallow_numeral (negative : Bool) (t : Token) (rest : List Token) :
    Shallow (numeral negative t rest) := by
  unfold numeral
  split <;> nofun

theorem shallow_argument (p : Profile) (ts : List Token) : Shallow (argument p ts) := by
  unfold argument
  split
  · exact shallow_numeral _ _ _
  · split
    · exact shallow_fail _ _
    · split
      · split
        · exact shallow_ok _
        · exact shallow_failure _
      · exact shallow_numeral _ _ _
      · exact shallow_ok _
      all_goals exact shallow_fail _ _

theorem shallow_arguments (p : Profile) (ts : List Token) : Shallow (arguments p ts) := by
  fun_induction arguments p ts with
  | case1 ts stop ha => exact (shallow_argument p ts).of_error ha
  | case3 ts e rest ha rest' hc hp stop hr ih => exact ih.of_error hr
  | case2 | case4 | case5 => exact shallow_ok _
  | case6 | case7 => exact shallow_fail _ _

theorem shallow_argumentList (p : Profile) (ts : List Token) : Shallow (argumentList p ts) := by
  unfold argumentList
  split
  · exact shallow_ok _
  · exact shallow_arguments p _

theorem shallow_identifier (missing : Cause) (ts : List Token) :
    Shallow (identifier missing ts) := by
  unfold identifier
  split
  · exact shallow_fail _ _
  · split
    · exact shallow_ok _
    · exact shallow_fail _ _

theorem shallow_modifier (p : Profile) (ts : List Token) : Shallow (modifier p ts) := by
  unfold modifier
  split
  · next stop hi => exact (shallow_identifier _ ts).of_error hi
  split
  · exact shallow_fail _ _
  next rest _ =>
  split
  · next stop ha => exact (shallow_argumentList p rest).of_error ha
  · exact shallow_ok _

theorem shallow_modifiers (p : Profile) (ts : List Token) : Shallow (modifiers p ts) := by
  fun_induction modifiers p ts with
  | case1 | case4 => exact shallow_ok _
  | case2 ts rest hd stop hm => exact (shallow_modifier p rest).of_error hm
  | case3 ts rest hd m rest' hm stop hr ih => exact ih.of_error hr

theorem shallow_argumentPart (p : Profile) (ts : List Token) : Shallow (argumentPart p ts) := by
  unfold argumentPart
  split
  · exact shallow_ok _
  next rest _ =>
  split
  · next stop ha => exact (shallow_argumentList p rest).of_error ha
  · exact shallow_ok _

/-- Reading gave up at a token of `ts` whose offset is the given one. -/
def DeepAt (ts : List Token) (position : Nat) : Prop :=
  ∃ rest, Takes ts rest ∧ (current rest).position = position

theorem DeepAt.mono {ts ts' : List Token} {position : Nat} (h : DeepAt ts' position)
    (hts : Takes ts ts') : DeepAt ts position := by
  obtain ⟨rest, hrest, hposition⟩ := h
  exact ⟨rest, hts.trans hrest, hposition⟩

theorem ends_entry (ctx : Context) (depth : Nat) {ts : List Token} (h : startsInBlock ts) :
    Ends ts (component ctx depth ts) := by
  unfold startsInBlock at h
  split at h
  · next name next ts =>
    rw [Bool.and_eq_true] at h
    have hn := Token.kind_of_isCapitalised h.1
    exact (ends_call ctx depth hn _).mono (takes_cons (by simp [hn]) _)
  · cases h

/-- Components nest too deeply where an entry of the block does. -/
theorem deepAt_of_block {ctx : Context} {depth : Nat}
    (hentry : ∀ {ts position}, component ctx depth ts = .error (.tooDeep position) →
      DeepAt ts position) {owner : String} {ts : List Token} {position : Nat}
    (h : block (component ctx depth) owner ts = .error (.tooDeep position)) :
    DeepAt ts position := by
  fun_induction block (component ctx depth) owner ts with
  | case1 ts rest hr => cases h
  | case3 ts hr hk hs stop hc =>
    cases h
    exact hentry hc
  | case4 ts hr hk hs c rest hc hlt stop hb ih =>
    cases h
    exact (ih hb).mono ((ends_entry ctx depth hs).takes hc)
  | case5 ts hr hk hs c rest hc hlt cs rest' hb ih => cases h
  | case2 | case6 | case7 => cases h

/-- Reading a component gives up for its nesting at one of its tokens. -/
theorem deepAt_of_component {ctx : Context} {depth : Nat} {ts : List Token} {position : Nat}
    (h : component ctx depth ts = .error (.tooDeep position)) : DeepAt ts position := by
  induction depth generalizing ts position with
  | zero =>
    cases h
    exact ⟨ts, .refl ts, rfl⟩
  | succ depth ih =>
    rw [component] at h
    split at h
    · next stop hi => exact absurd h ((shallow_identifier _ ts).of_error hi position)
    next name rest hi =>
    have hname := (ends_identifier _ ts).takes hi
    split at h
    · next stop ha => exact absurd h ((shallow_argumentPart _ rest).of_error ha position)
    next args rest' ha =>
    have hargs := hname.trans ((ends_argumentPart _ rest).takes ha)
    split at h
    · next stop hb =>
      cases h
      unfold blockPart at hb
      split at hb
      · cases hb
      next inner hl =>
      split at hb
      · next stop hblock =>
        cases hb
        exact (deepAt_of_block ih hblock).mono (hargs.trans (takes_eat? hl))
      · cases hb
    next inner rest'' hb =>
    split at h
    · cases h
    split at h
    · next stop hm => exact absurd h ((shallow_modifiers _ rest'').of_error hm position)
    · cases h

end Parser

/-! ## The forest of a source -/

/-- A token of the source at whose offset something is reported. -/
theorem exists_token_of_diagnostic {p : Profile} {source : String} {d : Diagnostic}
    (h : d ∈ (Survey.ofSource p source).diagnostics) :
    d.place = Place.ofOffset source.toList d.position ∧
      ∃ t ∈ tokenize p source, d.position = t.position := by
  obtain ⟨a, ha, houtcome⟩ := List.mem_filterMap.mp h
  obtain ⟨hstart, hyields⟩ :=
    Parser.located_of_surveyed [] (Parser.surveyed_source p source) rfl rfl a ha
  rw [Survey.outcome_of_diagnostic houtcome, List.nil_append] at hyields
  rw [List.nil_append] at hstart
  obtain ⟨j, t, -, -, hget, hposition⟩ :=
    Parser.reported_of_yields (Parser.ended_tokenize p source) hstart hyields rfl
  refine ⟨?_, t, List.mem_of_getElem? hget, hposition⟩
  generalize (tokenize p source).drop a.stop = rest at hyields
  cases hyields with
  | dropped _ => rfl

/-- A token of the source at which components nest too deeply. -/
theorem exists_token_of_tooDeep {p : Profile} {source : String} {position : Nat}
    (h : (Survey.ofSource p source).halt = some (.tooDeep position)) :
    ∃ t ∈ tokenize p source, position = t.position := by
  obtain ⟨i, -, hstart, -, hgives, -⟩ :=
    Parser.halted_of_surveyed [] (Parser.surveyed_source p source) rfl rfl h
  rw [List.nil_append] at hstart hgives
  obtain ⟨name, hdrop, hk, hlt⟩ := hstart.drop
  cases hgives with
  | tooDeep hdeep =>
    obtain ⟨rest, htakes, hposition⟩ := Parser.deepAt_of_component hdeep
    have hne := (((Parser.ended_tokenize p source).drop hlt).takes htakes).ne_nil
    obtain ⟨used, heq, -⟩ := htakes
    obtain ⟨t, rest, rfl⟩ := List.exists_cons_of_ne_nil hne
    have hmem : t ∈ (tokenize p source).drop i := by rw [heq]; simp
    exact ⟨t, List.mem_of_mem_drop hmem, hposition.symm⟩

/-- A diagnostic of a source has the place of its offset, which lies in the source. -/
theorem placed_of_diagnostic {source filename : String} {forest : Forest}
    (h : parse source filename = .ok forest) {d : Diagnostic} (hd : d ∈ forest.diagnostics) :
    d.place = Place.ofOffset source.toList d.position ∧ d.position ≤ source.toList.length := by
  rcases Survey.forest_eq_ok h with ⟨-, rfl⟩ | ⟨position, hhalt, rfl⟩
  · obtain ⟨hplace, t, ht, hposition⟩ := exists_token_of_diagnostic hd
    exact ⟨hplace, hposition ▸ position_le_length ht⟩
  · obtain rfl := List.mem_singleton.mp hd
    obtain ⟨t, ht, rfl⟩ := exists_token_of_tooDeep hhalt
    exact ⟨rfl, position_le_length ht⟩

/-- The components of a forest in preorder, with their names. -/
theorem exists_names_of_parse {source filename : String} {forest : Forest}
    (h : parse source filename = .ok forest) :
    ∃ names, Grammar.NamesInOrder (.ofFilename filename) (Place.ofOffset source.toList)
      (tokenize (.ofFilename filename) source) (forest.nodes.flatMap Component.preorder) names := by
  rcases Survey.forest_eq_ok h with ⟨-, rfl⟩ | ⟨position, -, rfl⟩
  · exact Parser.exists_names_of_survey (.ofSource (.ofFilename filename) source) 0 none _
  · exact ⟨[], List.nil_sublist _, .nil⟩

/-- Components whose names stand in order have places in order. -/
theorem before_of_namesInOrder {p : Profile} {source : String} {cs : List Component}
    {names : List Token}
    (h : Grammar.NamesInOrder p (Place.ofOffset source.toList) (tokenize p source) cs names) :
    cs.Pairwise fun c d => c.place.Before d.place := by
  have hplaces : cs.map Component.place =
      names.map fun t => Place.ofOffset source.toList t.position := by
    rw [← List.forall₂_eq_eq_eq, List.forall₂_map_left_iff, List.forall₂_map_right_iff]
    exact h.2.imp fun c t hname => hname.token.2.2.2
  have hordered : names.Pairwise fun t u => t.position < u.position :=
    (tokensFrom_increasing p 0 source.toList).sublist h.1
  rw [← List.pairwise_map (f := Component.place) (R := Place.Before), hplaces, List.pairwise_map]
  refine hordered.imp_of_mem fun {t u} _ hu hlt => ?_
  exact Place.before_of_lt hlt (position_le_length (h.1.subset hu))

/-- **Places are faithful.** The place of each offset of a source leads back to it. Each component
of the forest of a source is derived from a row of tokens that starts with its name, an identifier
that stands in the source where the place of the component leads. In preorder the places increase.
The place of each diagnostic leads to the offset that it reports. -/
theorem places_lead_to_names_and_reports (source filename : String) :
    (∀ offset ≤ source.toList.length,
      (Place.ofOffset source.toList offset).LeadsTo source.toList offset) ∧
    ∀ forest, parse source filename = .ok forest →
      (∀ c ∈ forest.nodes.flatMap Component.preorder,
        ∃ t ∈ tokenize (.ofFilename filename) source,
          t.kind = .identifier ∧ t.text = c.name ∧
          c.name.toList <+: source.toList.drop t.position ∧
          c.place.LeadsTo source.toList t.position ∧
          Grammar.Names (.ofFilename filename) (Place.ofOffset source.toList)
            (tokenize (.ofFilename filename) source) c t) ∧
      (forest.nodes.flatMap Component.preorder).Pairwise (fun c d => c.place.Before d.place) ∧
      ∀ d ∈ forest.diagnostics, d.place.LeadsTo source.toList d.position := by
  refine ⟨fun offset h => Place.leadsTo_ofOffset _ h, fun forest hparse => ?_⟩
  obtain ⟨names, hnames⟩ := exists_names_of_parse hparse
  refine ⟨fun c hc => ?_, before_of_namesInOrder hnames, fun d hd => ?_⟩
  · obtain ⟨i, hi, rfl⟩ := List.getElem_of_mem hc
    have hname := hnames.2.get hi (hnames.2.length_eq ▸ hi)
    obtain ⟨ht, hk, htext, hplace⟩ := hname.token
    refine ⟨_, ht, hk, htext, ?_, ?_, hname⟩
    · have hprefix := Token.text_prefix_drop ht (by rw [hk]; decide)
      rwa [htext, Nat.sub_zero] at hprefix
    · rw [List.get_eq_getElem] at hplace
      rw [hplace]
      exact Place.leadsTo_ofOffset _ (position_le_length ht)
  · obtain ⟨hplace, hle⟩ := placed_of_diagnostic hparse hd
    rw [hplace]
    exact Place.leadsTo_ofOffset _ hle

/-- A text that cannot be read, and a stack on the lines after it. -/
def brokenTextSource : String :=
  "Text(=)\nVStack \x7b\n  Text(a)\n\x7d"

/-- What the source of the broken text is read as. -/
def brokenTextForest : Forest :=
  ⟨[⟨"VStack", [], [⟨"Text", [.reference "a"], [], [], ⟨3, 3⟩⟩], [], ⟨2, 1⟩⟩],
    [⟨.unexpectedArgument "=", 5, ⟨1, 6⟩⟩]⟩

theorem places_lead_to_names_and_reports_brokenText :
    20 ≤ brokenTextSource.toList.length ∧
      parse brokenTextSource "stack.ts" = .ok brokenTextForest ∧
      (Place.ofOffset brokenTextSource.toList 20).LeadsTo brokenTextSource.toList 20 ∧
      (∃ t ∈ tokenize .plain brokenTextSource, t.text = "Text" ∧
        Place.LeadsTo brokenTextSource.toList ⟨3, 3⟩ t.position) ∧
      Place.LeadsTo brokenTextSource.toList ⟨1, 6⟩ 5 := by
  have hle : 20 ≤ brokenTextSource.toList.length := by decide +kernel
  have hparse : parse brokenTextSource "stack.ts" = .ok brokenTextForest := by
    with_unfolding_all rfl
  obtain ⟨hoffsets, hforest⟩ := places_lead_to_names_and_reports brokenTextSource "stack.ts"
  obtain ⟨hnames, -, hdiagnostics⟩ := hforest brokenTextForest hparse
  obtain ⟨t, ht, -, htext, -, hleads, -⟩ :=
    hnames ⟨"Text", [.reference "a"], [], [], ⟨3, 3⟩⟩ (by
      simp [brokenTextForest, Component.preorder_eq])
  exact ⟨hle, hparse, hoffsets 20 hle, ⟨t, ht, htext, hleads⟩,
    hdiagnostics _ (List.mem_singleton_self _)⟩

end UiMarkup
