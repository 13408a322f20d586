import UiMarkup.Proofs.Parsing
import UiMarkup.Proofs.Relocation

/-!
# Reading up to a seam

The tokens of a text are followed by its end token, or by those of a text that stands after it.
Reading goes the same way in both cases, at other offsets and lines, unless it fails at the end of
the text.

* `Seam`: the end token, what may stand in its place, and how far the tokens before it are moved.
* `Seam.Fits us`: no lookahead from the tokens `us` into what follows makes a difference.
* `Mirrors S us f r r'`: reading comes to `r` before the end token and to `r'` before the tokens
  that stand in its place, with one `mirrors_*` lemma for each function of the parser.
-/

namespace UiMarkup.Parser

/-- What follows some tokens: the end token `stop`, or in its place the tokens `tail`. In the second
case all tokens stand `shift` characters and `lines` lines further on. -/
structure Seam where
  before : Context
  after : Context
  shift : Nat
  lines : Nat
  stop : Token
  tail : List Token
  profile_eq : after.profile = before.profile
  locate_eq : ∀ offset ≤ stop.position,
    after.locate (offset + shift) = (before.locate offset).down lines
  kind_stop : stop.kind = .eof
  /-- What stands in place of the end token does not continue a component. -/
  dot_tail : (current tail).isSymbol "." = false
  opensCall_tail : (current tail).opensCall = false

namespace Seam

variable (S : Seam)

/-- The tokens `us` before the end token. -/
def left (us : List Token) : List Token :=
  us ++ [S.stop]

/-- The tokens `us` before those that stand in place of the end token. -/
def right (us : List Token) : List Token :=
  us.map (Token.shift S.shift) ++ S.tail

@[simp] theorem left_nil : S.left [] = [S.stop] := rfl

@[simp] theorem left_cons (t : Token) (us : List Token) : S.left (t :: us) = t :: S.left us := rfl

@[simp] theorem right_nil : S.right [] = S.tail := rfl

@[simp] theorem right_cons (t : Token) (us : List Token) :
    S.right (t :: us) = t.shift S.shift :: S.right us := rfl

theorem left_append (used us : List Token) : S.left (used ++ us) = used ++ S.left us := by
  simp [left]

theorem right_append (used us : List Token) :
    S.right (used ++ us) = used.map (Token.shift S.shift) ++ S.right us := by
  simp [right]

theorem length_left (us : List Token) : (S.left us).length = us.length + 1 := by
  simp [left]

theorem length_right (us : List Token) : (S.right us).length = us.length + S.tail.length := by
  simp [right]

theorem isSymbol_stop (symbol : String) : S.stop.isSymbol symbol = false :=
  Token.isSymbol_of_kind_ne (by simp [S.kind_stop]) symbol

theorem opensCall_stop : S.stop.opensCall = false := by
  simp [Token.opensCall, S.isSymbol_stop]

theorem isSymbol_tail_of_opensCall {symbol : String} (h : symbol = "(" ∨ symbol = "\x7b") :
    (current S.tail).isSymbol symbol = false := by
  have hopens := S.opensCall_tail
  simp only [Token.opensCall, Bool.or_eq_false_iff] at hopens
  rcases h with rfl | rfl
  · exact hopens.1
  · exact hopens.2

/-- No call opens at the seam. -/
theorem opensCall_current_right (us : List Token) :
    (current (S.right us)).opensCall = (current (S.left us)).opensCall := by
  cases us with
  | nil => exact S.opensCall_tail.trans S.opensCall_stop.symm
  | cons t us => rfl

/-- The tokens `us` stand before the end token, and looking ahead from the last of them over the
seam makes no difference. -/
structure Fits (us : List Token) : Prop where
  kind : ∀ t ∈ us, t.kind ≠ .eof
  position : ∀ t ∈ us, t.position ≤ S.stop.position
  /-- A dot at the seam does not become part of a dotted reference. -/
  dot : ∀ t, [t] <:+ us → t.isSymbol "." → (current S.tail).kind ≠ .identifier
  /-- A minus sign at the seam does not become part of a number. -/
  minus : ∀ t, [t] <:+ us → t.kind = .unknown → t.text = "-" → (current S.tail).kind ≠ .number

variable {S} {us us' : List Token}

theorem Fits.mono (h : S.Fits us) (hs : us' <:+ us) : S.Fits us' :=
  ⟨fun t ht => h.kind t (hs.mem ht), fun t ht => h.position t (hs.mem ht),
    fun t ht => h.dot t (ht.trans hs), fun t ht => h.minus t (ht.trans hs)⟩

theorem Fits.tail {t : Token} (h : S.Fits (t :: us)) : S.Fits us :=
  h.mono (List.suffix_cons t us)

end Seam

/-- How reading the tokens `us` before those that stand in place of the end token mirrors reading
them before the end token. What is read is changed by `f`. -/
inductive Mirrors (S : Seam) (us : List Token) {α : Type} (f : α → α) : Step α → Step α → Prop where
  | ok {x : α} {us' : List Token} (h : us' <:+ us) :
      Mirrors S us f (.ok (x, S.left us')) (.ok (f x, S.right us'))
  | failure {cause : Cause} {position : Nat} {us' : List Token} (h : us' <:+ us)
      (hp : position ≤ S.stop.position) :
      Mirrors S us f (.error (.failure ⟨cause, position, S.left us'⟩))
        (.error (.failure ⟨cause, position + S.shift, S.right us'⟩))
  /-- Nothing is said after a failure at the end token, unless an end token stands in its place. -/
  | atEnd {cause : Cause} {r' : Step α} (h : S.tail ≠ [S.stop.shift S.shift]) :
      Mirrors S us f (fail cause [S.stop]) r'
  | tooDeep (position position' : Nat) :
      Mirrors S us f (.error (.tooDeep position)) (.error (.tooDeep position'))
  | oversized (digits : Nat) :
      Mirrors S us f (.error (.oversizedInteger digits)) (.error (.oversizedInteger digits))

namespace Mirrors

variable {S : Seam} {us us' : List Token} {α β : Type} {f : α → α} {g : β → β} {r r' : Step α}

theorem mono (h : Mirrors S us' f r r') (hs : us' <:+ us) : Mirrors S us f r r' := by
  cases h with
  | ok h => exact .ok (h.trans hs)
  | failure h hp => exact .failure (h.trans hs) hp
  | atEnd h => exact .atEnd h
  | tooDeep position position' => exact .tooDeep position position'
  | oversized digits => exact .oversized digits

/-- A stop is passed on as it is. -/
theorem of_error {stop : Stop} {q' : Step β} (h : Mirrors S us f r r') (hr : r = .error stop)
    (hq : ∀ stop', r' = .error stop' → q' = .error stop') : Mirrors S us g (.error stop) q' := by
  cases h with
  | ok h => cases hr
  | failure h hp =>
    cases hr
    rw [hq _ rfl]
    exact .failure h hp
  | atEnd h =>
    cases hr
    exact .atEnd h
  | tooDeep position position' =>
    cases hr
    rw [hq _ rfl]
    exact .tooDeep position position'
  | oversized digits =>
    cases hr
    rw [hq _ rfl]
    exact .oversized digits

/-- What is read is mirrored. -/
theorem read {x : α} {rest : List Token} (h : Mirrors S us f r r') (hr : r = .ok (x, rest)) :
    ∃ us', us' <:+ us ∧ rest = S.left us' ∧ r' = .ok (f x, S.right us') := by
  subst hr
  cases h with
  | ok h => exact ⟨_, h, rfl, rfl⟩

/-- Reading fails at the end token, and at one that stands in its place. -/
theorem of_end {cause : Cause} (hr : r = fail cause [S.stop])
    (hr' : S.tail = [S.stop.shift S.shift] → r' = fail cause S.tail) : Mirrors S us f r r' := by
  subst hr
  by_cases htail : S.tail = [S.stop.shift S.shift]
  · have hfailure : (fail cause S.tail : Step α) =
        .error (.failure ⟨cause, S.stop.position + S.shift, S.right []⟩) := by
      rw [fail, htail, S.right_nil, htail]
      rfl
    rw [hr' htail, hfailure]
    change Mirrors S us f (.error (.failure ⟨cause, S.stop.position, S.left []⟩)) _
    exact .failure List.nil_suffix (Nat.le_refl _)
  · exact .atEnd htail

theorem fail (cause : Cause) (h : S.Fits us) :
    Mirrors S us f (Parser.fail cause (S.left us)) (Parser.fail cause (S.right us)) := by
  cases us with
  | nil => exact of_end rfl fun _ => rfl
  | cons t us => exact .failure (List.suffix_refl _) (h.position t List.mem_cons_self)

end Mirrors

section
variable {S : Seam} {us : List Token}

/-! ## Symbols -/

theorem eat?_left_nil (symbol : String) : eat? symbol (S.left []) = none :=
  eat?_eq_none (by simp [current, S.isSymbol_stop])

/-- A symbol that comes next is eaten on both sides. -/
theorem eat?_right_eq_some {symbol : String} {rest : List Token}
    (h : eat? symbol (S.left us) = some rest) :
    ∃ us', us' <:+ us ∧ rest = S.left us' ∧ eat? symbol (S.right us) = some (S.right us') := by
  cases us with
  | nil =>
    rw [eat?_left_nil] at h
    cases h
  | cons t us =>
    obtain ⟨t', heq, ht⟩ := eat?_eq_some h
    obtain ⟨rfl, rfl⟩ := List.cons.inj heq
    exact ⟨us, List.suffix_cons t us, rfl, eat?_cons ht _⟩

theorem eat?_right_eq_none {symbol : String} (h : eat? symbol (S.left us) = none)
    (hseam : us = [] → (current S.tail).isSymbol symbol = false) :
    eat? symbol (S.right us) = none := by
  cases us with
  | nil => exact eat?_eq_none (by simp [hseam rfl])
  | cons t us =>
    have ht : ¬ t.isSymbol symbol := current_of_eat?_eq_none h
    exact eat?_eq_none ht

/-- Where reading fails at the end token, it may be taken that the same token comes next on both
sides of the seam. -/
theorem Mirrors.of_current {α : Type} {f : α → α} {r r' : Step α}
    (hend : us = [] → ∃ cause, r = Parser.fail cause [S.stop])
    (h : current (S.right us) = (current (S.left us)).shift S.shift → Mirrors S us f r r') :
    Mirrors S us f r r' := by
  cases us with
  | cons t us => exact h rfl
  | nil =>
    by_cases htail : S.tail = [S.stop.shift S.shift]
    · exact h (by rw [S.right_nil, htail]; rfl)
    · obtain ⟨cause, rfl⟩ := hend rfl
      exact .atEnd htail

theorem eat?_eq_none_of_current {symbol : String}
    (hcurrent : current (S.right us) = (current (S.left us)).shift S.shift)
    (h : eat? symbol (S.left us) = none) : eat? symbol (S.right us) = none :=
  eat?_eq_none (by rw [hcurrent]; exact current_of_eat?_eq_none h)

/-! ## Arguments -/

theorem dottedNames_eq_nil {ts : List Token} (h : ∀ dot name rest, ts = dot :: name :: rest →
    (dot.isSymbol "." && name.kind == .identifier) = false) : dottedNames ts = ([], ts) := by
  fun_cases dottedNames ts with
  | case1 dot name rest hc => simp [h dot name rest rfl] at hc
  | case2 | case3 => rfl

/-- A reference is not continued over the seam. -/
theorem dottedNames_mirrored (h : S.Fits us) :
    ∃ names us', us' <:+ us ∧ dottedNames (S.left us) = (names, S.left us') ∧
      dottedNames (S.right us) = (names, S.right us') := by
  fun_induction dottedNames us with
  | case1 dot name us hc names rest heq ih =>
    obtain ⟨names', us', hs, hl, hr⟩ := ih h.tail.tail
    refine ⟨name.text :: names', us', hs.trans ((List.suffix_cons _ _).trans
      (List.suffix_cons _ _)), ?_, ?_⟩
    · simp [dottedNames, hc, hl]
    · simp [dottedNames, hc, hr]
  | case2 dot name us hc =>
    refine ⟨[], dot :: name :: us, List.suffix_refl _, ?_, ?_⟩ <;> simp [dottedNames, hc]
  | case3 us hshort =>
    -- At most one token is left before the seam: looking ahead from it reaches over the seam.
    refine ⟨[], us, List.suffix_refl _, dottedNames_eq_nil ?_, dottedNames_eq_nil ?_⟩
    all_goals
      intro dot name rest heq
      rw [Bool.and_eq_false_iff, beq_eq_false_iff_ne]
    · rcases us with _ | ⟨t, _ | ⟨t', us⟩⟩
      · simp at heq
      · simp only [S.left_cons, S.left_nil, List.cons.injEq] at heq
        exact .inr (by simp [← heq.2.1, S.kind_stop])
      · exact absurd rfl (hshort t t' us)
    · rcases us with _ | ⟨t, _ | ⟨t', us⟩⟩
      · have hdot := S.dot_tail
        rw [← S.right_nil, heq] at hdot
        exact .inl hdot
      · rw [S.right_cons, S.right_nil] at heq
        obtain ⟨rfl, htail⟩ := List.cons.inj heq
        cases hdot : t.isSymbol "." with
        | false => exact .inl hdot
        | true =>
          have hnext := h.dot t (List.suffix_refl _) hdot
          rw [htail] at hnext
          exact .inr hnext
      · exact absurd rfl (hshort t t' us)

/-- A minus sign takes its number on both sides of the seam or on none. -/
theorem negated?_mirrored (h : S.Fits us) :
    (∃ t us', us' <:+ us ∧ negated? (S.left us) = some (t, S.left us') ∧
      negated? (S.right us) = some (t.shift S.shift, S.right us')) ∨
    negated? (S.left us) = none ∧ (us ≠ [] → negated? (S.right us) = none) := by
  rcases us with _ | ⟨minus, _ | ⟨t, us⟩⟩
  · exact .inr ⟨rfl, fun hne => absurd rfl hne⟩
  · refine .inr ⟨by simp [negated?, S.kind_stop], fun _ => ?_⟩
    have hminus := h.minus minus (List.suffix_refl _)
    rw [S.right_cons, S.right_nil]
    cases htail : S.tail with
    | nil => rfl
    | cons t rest =>
      rw [htail] at hminus
      simp only [negated?, Token.kind_shift, Token.text_shift, Bool.and_eq_true, beq_iff_eq]
      rw [if_neg]
      rintro ⟨⟨hk, htext⟩, ht⟩
      exact hminus hk htext ht
  · by_cases hc : minus.kind == .unknown && minus.text == "-" && t.kind == .number
    · refine .inl ⟨t, us, (List.suffix_cons _ _).trans (List.suffix_cons _ _), ?_, ?_⟩ <;>
        simp [negated?, hc]
    · exact .inr ⟨by simp [negated?, hc], fun _ => by simp [negated?, hc]⟩

theorem mirrors_numeral (negative : Bool) (t : Token) (us : List Token) :
    Mirrors S us id (numeral negative t (S.left us))
      (numeral negative (t.shift S.shift) (S.right us)) := by
  unfold numeral
  rw [Token.text_shift]
  split
  · exact .ok (List.suffix_refl _)
  · exact .oversized _

theorem argument_end (p : Profile) {t : Token} (h : t.kind = .eof) :
    argument p [t] = fail .argumentMissing [t] := by
  rw [argument, negated?_eq_none (by simp [h])]
  simp only [h]

theorem mirrors_argument (p : Profile) (h : S.Fits us) :
    Mirrors S us id (argument p (S.left us)) (argument p (S.right us)) := by
  cases us with
  | nil =>
    refine .of_end (argument_end p S.kind_stop) fun htail => ?_
    rw [S.right_nil, htail]
    exact argument_end p S.kind_stop
  | cons t us =>
    rcases negated?_mirrored h with ⟨n, us', hs, hl, hr⟩ | ⟨hl, hr⟩
    · unfold argument
      rw [hl, hr]
      exact (mirrors_numeral true n us').mono hs
    have hs := List.suffix_cons t us
    unfold argument
    rw [hl, hr (by simp)]
    simp only [S.left_cons, S.right_cons, Token.kind_shift, Token.text_shift]
    cases t.kind with
    | string =>
      dsimp only
      split
      · exact .ok hs
      · exact .failure hs (h.position t List.mem_cons_self)
    | number => exact (mirrors_numeral false t us).mono hs
    | identifier =>
      dsimp only
      by_cases hp : p = .extended
      · obtain ⟨names, us', hs', hl', hr'⟩ := dottedNames_mirrored h.tail
        simp only [hp, if_true, hl', hr']
        exact .ok (hs'.trans hs)
      · simp only [hp, if_false]
        exact .ok hs
    | template | eof | symbol | unknown => exact .fail _ h

theorem arguments_eq (p : Profile) (ts : List Token) :
    arguments p ts =
      match argument p ts with
      | .error stop => .error stop
      | .ok (e, rest) =>
        match eat? "," rest with
        | some rest' =>
          match eat? ")" rest' with
          | some rest'' => .ok ([e], rest'')
          | none =>
            match arguments p rest' with
            | .error stop => .error stop
            | .ok (es, rest'') => .ok (e :: es, rest'')
        | none =>
          match eat? ")" rest with
          | some rest' => .ok ([e], rest')
          | none =>
            if (current rest).kind == .eof then fail .unclosedArguments rest
            else fail (.expectedSeparator (current rest).text) rest := by
  rw [arguments]
  cases argument p ts with
  | error stop => rfl
  | ok x =>
    dsimp only
    cases eat? "," x.2 <;> rfl

theorem arguments_end (p : Profile) {t : Token} (h : t.kind = .eof) :
    arguments p [t] = fail .argumentMissing [t] := by
  rw [arguments_eq, argument_end p h]
  rfl

theorem mirrors_arguments (p : Profile) (h : S.Fits us) :
    Mirrors S us id (arguments p (S.left us)) (arguments p (S.right us)) := by
  generalize hts : S.left us = ts
  fun_induction arguments p ts generalizing us with
  | case1 ts stop ha =>
    subst hts
    exact (mirrors_argument p h).of_error ha fun stop' ha' => by rw [arguments_eq, ha']
  | case2 ts e rest ha rest' hc rest'' hp =>
    subst hts
    obtain ⟨us₁, hs₁, rfl, ha'⟩ := (mirrors_argument p h).read ha
    obtain ⟨us₂, hs₂, rfl, hc'⟩ := eat?_right_eq_some hc
    obtain ⟨us₃, hs₃, rfl, hp'⟩ := eat?_right_eq_some hp
    rw [arguments_eq, ha']
    simp only [hc', hp']
    exact .ok (hs₃.trans (hs₂.trans hs₁))
  | case3 ts e rest ha rest' hc hp stop hr ih =>
    subst hts
    obtain ⟨us₁, hs₁, rfl, ha'⟩ := (mirrors_argument p h).read ha
    obtain ⟨us₂, hs₂, rfl, hc'⟩ := eat?_right_eq_some hc
    have hs := hs₂.trans hs₁
    rw [arguments_eq, ha']
    simp only [hc']
    -- The closing parenthesis may stand on the other side of the seam only.
    refine (Mirrors.of_current (fun hnil => ?_) fun hcurrent => ?_).mono hs
    · subst hnil
      exact ⟨_, hr.symm.trans (arguments_end p S.kind_stop)⟩
    · simp only [eat?_eq_none_of_current hcurrent hp]
      exact (ih (h.mono hs) rfl).of_error hr fun stop' hr' => by rw [hr']
  | case4 ts e rest ha rest' hc hp es rest'' hr ih =>
    subst hts
    obtain ⟨us₁, hs₁, rfl, ha'⟩ := (mirrors_argument p h).read ha
    obtain ⟨us₂, hs₂, rfl, hc'⟩ := eat?_right_eq_some hc
    have hs := hs₂.trans hs₁
    obtain ⟨us₃, hs₃, rfl, hr'⟩ := (ih (h.mono hs) rfl).read hr
    rw [arguments_eq, ha']
    simp only [hc']
    refine (Mirrors.of_current (fun hnil => ?_) fun hcurrent => ?_).mono hs
    · subst hnil
      cases hr.symm.trans (arguments_end p S.kind_stop)
    · simp only [eat?_eq_none_of_current hcurrent hp, hr']
      exact .ok hs₃
  | case5 ts e rest ha hc rest' hp =>
    subst hts
    obtain ⟨us₁, hs₁, rfl, ha'⟩ := (mirrors_argument p h).read ha
    obtain ⟨us₂, hs₂, rfl, hp'⟩ := eat?_right_eq_some hp
    rw [arguments_eq, ha']
    refine (Mirrors.of_current (fun hnil => ?_) fun hcurrent => ?_).mono hs₁
    · subst hnil
      rw [eat?_left_nil] at hp
      cases hp
    · simp only [eat?_eq_none_of_current hcurrent hc, hp']
      exact .ok hs₂
  | case6 ts e rest ha hc hp hk | case7 ts e rest ha hc hp hk =>
    subst hts
    obtain ⟨us₁, hs₁, rfl, ha'⟩ := (mirrors_argument p h).read ha
    rw [arguments_eq, ha']
    refine (Mirrors.of_current (fun hnil => ?_) fun hcurrent => ?_).mono hs₁
    · exact ⟨_, by rw [hnil, S.left_nil]⟩
    · simp only [eat?_eq_none_of_current hcurrent hc, eat?_eq_none_of_current hcurrent hp, hcurrent,
        Token.kind_shift, hk]
      exact .fail _ (h.mono hs₁)

theorem mirrors_argumentList (p : Profile) (h : S.Fits us) :
    Mirrors S us id (argumentList p (S.left us)) (argumentList p (S.right us)) := by
  unfold argumentList
  split
  · next rest hp =>
    obtain ⟨us', hs, rfl, hp'⟩ := eat?_right_eq_some hp
    simp only [hp']
    exact .ok hs
  · next hp =>
    refine .of_current (fun hnil => ?_) fun hcurrent => ?_
    · subst hnil
      exact ⟨_, arguments_end p S.kind_stop⟩
    · simp only [eat?_eq_none_of_current hcurrent hp]
      exact mirrors_arguments p h

/-! ## Modifiers -/

theorem mirrors_identifier (missing : Cause) (h : S.Fits us) :
    Mirrors S us (Token.shift S.shift) (identifier missing (S.left us))
      (identifier missing (S.right us)) := by
  cases us with
  | nil =>
    have hend {t : Token} (ht : t.kind = .eof) :
        identifier missing [t] = fail missing [t] := by
      simp [identifier, ht]
    refine .of_end (hend S.kind_stop) fun htail => ?_
    rw [S.right_nil, htail]
    exact hend S.kind_stop
  | cons t us =>
    by_cases hk : t.kind = .identifier
    · have hk' : (t.shift S.shift).kind = .identifier := hk
      rw [S.left_cons, S.right_cons, identifier_cons hk, identifier_cons hk']
      exact .ok (List.suffix_cons t us)
    · have hfail : ∀ t' ts, t'.kind = t.kind →
          identifier missing (t' :: ts) = fail missing (t' :: ts) := by
        intro t' ts ht'
        simp [identifier, ht', hk]
      rw [S.left_cons, S.right_cons, hfail t _ rfl, hfail _ _ (Token.kind_shift _ _)]
      exact .fail missing h

theorem mirrors_modifier (p : Profile) (h : S.Fits us) :
    Mirrors S us id (modifier p (S.left us)) (modifier p (S.right us)) := by
  unfold modifier
  split
  · next stop hi => exact (mirrors_identifier _ h).of_error hi fun stop' hi' => by rw [hi']
  next name rest hi =>
  obtain ⟨us₁, hs₁, rfl, hi'⟩ := (mirrors_identifier _ h).read hi
  simp only [hi', Token.text_shift]
  split
  · next hp =>
    refine (Mirrors.of_current (fun hnil => ⟨_, by rw [hnil, S.left_nil]⟩)
      fun hcurrent => ?_).mono hs₁
    simp only [eat?_eq_none_of_current hcurrent hp]
    exact .fail _ (h.mono hs₁)
  next rest' hp =>
  obtain ⟨us₂, hs₂, rfl, hp'⟩ := eat?_right_eq_some hp
  have hs := hs₂.trans hs₁
  have hargs := mirrors_argumentList p (h.mono hs)
  simp only [hp']
  split
  · next stop ha => exact (hargs.of_error ha fun stop' ha' => by rw [ha']).mono hs
  · next args rest'' ha =>
    obtain ⟨us₃, hs₃, rfl, ha'⟩ := hargs.read ha
    simp only [ha']
    exact .ok (hs₃.trans hs)

theorem modifiers_eq (p : Profile) (ts : List Token) :
    modifiers p ts =
      match eat? "." ts with
      | none => .ok ([], ts)
      | some rest =>
        match modifier p rest with
        | .error stop => .error stop
        | .ok (m, rest) =>
          match modifiers p rest with
          | .error stop => .error stop
          | .ok (ms, rest) => .ok (m :: ms, rest) := by
  rw [modifiers]
  cases eat? "." ts with
  | none => rfl
  | some rest =>
    dsimp only
    cases modifier p rest <;> rfl

theorem mirrors_modifiers (p : Profile) (h : S.Fits us) :
    Mirrors S us id (modifiers p (S.left us)) (modifiers p (S.right us)) := by
  generalize hts : S.left us = ts
  fun_induction modifiers p ts generalizing us with
  | case1 ts hd =>
    subst hts
    rw [modifiers_eq, eat?_right_eq_none hd fun _ => S.dot_tail]
    exact .ok (List.suffix_refl us)
  | case2 ts rest hd stop hm =>
    subst hts
    obtain ⟨us₁, hs₁, rfl, hd'⟩ := eat?_right_eq_some hd
    rw [modifiers_eq, hd']
    exact ((mirrors_modifier p (h.mono hs₁)).of_error hm fun stop' hm' => by
      simp only [hm']).mono hs₁
  | case3 ts rest hd m rest' hm stop hr ih =>
    subst hts
    obtain ⟨us₁, hs₁, rfl, hd'⟩ := eat?_right_eq_some hd
    obtain ⟨us₂, hs₂, rfl, hm'⟩ := (mirrors_modifier p (h.mono hs₁)).read hm
    have hs := hs₂.trans hs₁
    rw [modifiers_eq, hd']
    simp only [hm']
    exact ((ih (h.mono hs) rfl).of_error hr fun stop' hr' => by rw [hr']).mono hs
  | case4 ts rest hd m rest' hm ms rest'' hr ih =>
    subst hts
    obtain ⟨us₁, hs₁, rfl, hd'⟩ := eat?_right_eq_some hd
    obtain ⟨us₂, hs₂, rfl, hm'⟩ := (mirrors_modifier p (h.mono hs₁)).read hm
    have hs := hs₂.trans hs₁
    obtain ⟨us₃, hs₃, rfl, hr'⟩ := (ih (h.mono hs) rfl).read hr
    rw [modifiers_eq, hd']
    simp only [hm', hr']
    exact .ok (hs₃.trans hs)

/-! ## Components -/

theorem startsInBlock_cons (name : Token) (ts : List Token) :
    startsInBlock (name :: ts) = (name.isCapitalised && (current ts).opensCall) := by
  cases ts with
  | nil => exact (Bool.and_false _).symm
  | cons t ts => rfl

theorem startsInBlock_right (hne : us ≠ []) :
    startsInBlock (S.right us) = startsInBlock (S.left us) := by
  obtain ⟨name, us, rfl⟩ := List.exists_cons_of_ne_nil hne
  rw [S.right_cons, S.left_cons, startsInBlock_cons, startsInBlock_cons,
    S.opensCall_current_right, Token.isCapitalised_shift]

theorem ne_nil_of_kind_current (h : ((current (S.left us)).kind == .eof) ≠ true) : us ≠ [] := by
  rintro rfl
  simp [current, S.kind_stop] at h

theorem length_right_lt (us us' : List Token) :
    (S.right us').length < (S.right us).length ↔ (S.left us').length < (S.left us).length := by
  simp only [S.length_left, S.length_right]
  omega

theorem mirrors_block {entry entry' : List Token → Step Component}
    (hentry : ∀ {us}, S.Fits us →
      Mirrors S us (Component.down S.lines) (entry (S.left us)) (entry' (S.right us)))
    (owner : String) (h : S.Fits us) :
    Mirrors S us (List.map (Component.down S.lines)) (block entry owner (S.left us))
      (block entry' owner (S.right us)) := by
  generalize hts : S.left us = ts
  fun_induction block entry owner ts generalizing us with
  | case1 ts rest hr =>
    subst hts
    obtain ⟨us', hs, rfl, hr'⟩ := eat?_right_eq_some hr
    rw [block, hr']
    exact .ok hs
  | case2 ts hr hk =>
    subst hts
    refine .of_current (fun hnil => ⟨_, by rw [hnil, S.left_nil]⟩) fun hcurrent => ?_
    rw [block]
    simp only [eat?_eq_none_of_current hcurrent hr, hcurrent, Token.kind_shift, hk, if_true]
    exact .fail _ h
  | case3 ts hr hk hs stop hc =>
    subst hts
    have hne := ne_nil_of_kind_current hk
    rw [block_of_startsInBlock entry' owner ((startsInBlock_right hne).trans hs)]
    exact (hentry h).of_error hc fun stop' hc' => by rw [hc']
  | case4 ts hr hk hs c rest hc hlt stop hb ih =>
    subst hts
    have hne := ne_nil_of_kind_current hk
    obtain ⟨us', hs', rfl, hc'⟩ := (hentry h).read hc
    rw [block_of_startsInBlock entry' owner ((startsInBlock_right hne).trans hs), hc']
    simp only [if_pos ((length_right_lt us us').mpr hlt)]
    exact ((ih (h.mono hs') rfl).of_error hb fun stop' hb' => by rw [hb']).mono hs'
  | case5 ts hr hk hs c rest hc hlt cs rest' hb ih =>
    subst hts
    have hne := ne_nil_of_kind_current hk
    obtain ⟨us', hs', rfl, hc'⟩ := (hentry h).read hc
    obtain ⟨us'', hs'', rfl, hb'⟩ := (ih (h.mono hs') rfl).read hb
    rw [block_of_startsInBlock entry' owner ((startsInBlock_right hne).trans hs), hc']
    simp only [if_pos ((length_right_lt us us').mpr hlt), hb']
    exact .ok (hs''.trans hs')
  | case6 ts hr hk hs c rest hc hlt =>
    subst hts
    have hne := ne_nil_of_kind_current hk
    obtain ⟨us', hs', rfl, hc'⟩ := (hentry h).read hc
    rw [block_of_startsInBlock entry' owner ((startsInBlock_right hne).trans hs), hc']
    simp only [if_neg (mt (length_right_lt us us').mp hlt)]
    obtain ⟨t, us, rfl⟩ := List.exists_cons_of_ne_nil hne
    exact .fail (.expectedComponent t.text) h
  | case7 ts hr hk hs =>
    subst hts
    have hne := ne_nil_of_kind_current hk
    have hs' := startsInBlock_right (S := S) hne
    obtain ⟨t, us, rfl⟩ := List.exists_cons_of_ne_nil hne
    rw [block]
    have hk' : ((current (S.right (t :: us))).kind == .eof) ≠ true := hk
    simp only [eat?_right_eq_none hr fun hnil => absurd hnil hne, hs', hs, if_neg hk']
    exact .fail (.expectedComponent t.text) h

theorem mirrors_argumentPart (p : Profile) (h : S.Fits us) :
    Mirrors S us id (argumentPart p (S.left us)) (argumentPart p (S.right us)) := by
  unfold argumentPart
  split
  · next hp =>
    simp only [eat?_right_eq_none hp fun _ => S.isSymbol_tail_of_opensCall (.inl rfl)]
    exact .ok (List.suffix_refl us)
  next rest hp =>
  obtain ⟨us₁, hs₁, rfl, hp'⟩ := eat?_right_eq_some hp
  have hargs := mirrors_argumentList p (h.mono hs₁)
  simp only [hp']
  split
  · next stop ha => exact (hargs.of_error ha fun stop' ha' => by rw [ha']).mono hs₁
  · next args rest' ha =>
    obtain ⟨us₂, hs₂, rfl, ha'⟩ := hargs.read ha
    simp only [ha']
    exact .ok (hs₂.trans hs₁)

theorem mirrors_blockPart {entry entry' : List Token → Step Component}
    (hentry : ∀ {us}, S.Fits us →
      Mirrors S us (Component.down S.lines) (entry (S.left us)) (entry' (S.right us)))
    (owner : String) (h : S.Fits us) :
    Mirrors S us (Option.map (List.map (Component.down S.lines)))
      (blockPart entry owner (S.left us)) (blockPart entry' owner (S.right us)) := by
  unfold blockPart
  split
  · next hl =>
    simp only [eat?_right_eq_none hl fun _ => S.isSymbol_tail_of_opensCall (.inr rfl)]
    exact .ok (List.suffix_refl us)
  next rest hl =>
  obtain ⟨us₁, hs₁, rfl, hl'⟩ := eat?_right_eq_some hl
  have hblock := mirrors_block hentry owner (h.mono hs₁)
  simp only [hl']
  split
  · next stop hb => exact (hblock.of_error hb fun stop' hb' => by rw [hb']).mono hs₁
  · next cs rest' hb =>
    obtain ⟨us₂, hs₂, rfl, hb'⟩ := hblock.read hb
    simp only [hb']
    exact .ok (hs₂.trans hs₁)

theorem mem_of_identifier_left {missing : Cause} {name : Token} {rest : List Token}
    (h : identifier missing (S.left us) = .ok (name, rest)) : name ∈ us := by
  obtain ⟨heq, hk⟩ := identifier_eq_ok h
  cases us with
  | nil =>
    obtain ⟨rfl, -⟩ := List.cons.inj heq
    rw [S.kind_stop] at hk
    cases hk
  | cons t us =>
    obtain ⟨rfl, -⟩ := List.cons.inj heq
    exact List.mem_cons_self

/-- Reading a component up to the seam goes the same way on both sides of it. -/
theorem mirrors_component (depth : Nat) (h : S.Fits us) :
    Mirrors S us (Component.down S.lines) (component S.before depth (S.left us))
      (component S.after depth (S.right us)) := by
  induction depth generalizing us with
  | zero => exact .tooDeep _ _
  | succ depth ih =>
    rw [component, component, S.profile_eq]
    split
    · next stop hi => exact (mirrors_identifier _ h).of_error hi fun stop' hi' => by rw [hi']
    next name rest hi =>
    have hplace := S.locate_eq name.position (h.position name (mem_of_identifier_left hi))
    obtain ⟨us₁, hs₁, rfl, hi'⟩ := (mirrors_identifier _ h).read hi
    have hargs := mirrors_argumentPart S.before.profile (h.mono hs₁)
    simp only [hi', Token.text_shift, Token.position_shift]
    split
    · next stop ha => exact (hargs.of_error ha fun stop' ha' => by rw [ha']).mono hs₁
    next args rest' ha =>
    obtain ⟨us₂, hs₂, rfl, ha'⟩ := hargs.read ha
    have hs := hs₂.trans hs₁
    have hblock := mirrors_blockPart ih name.text (h.mono hs)
    simp only [ha']
    split
    · next stop hb => exact (hblock.of_error hb fun stop' hb' => by rw [hb']).mono hs
    next inner rest'' hb =>
    obtain ⟨us₃, hs₃, rfl, hb'⟩ := hblock.read hb
    have hs' := hs₃.trans hs
    have hmods := mirrors_modifiers S.before.profile (h.mono hs')
    simp only [hb', id, Option.isNone_map]
    split
    · exact (Mirrors.fail _ (h.mono hs')).mono hs'
    split
    · next stop hm => exact (hmods.of_error hm fun stop' hm' => by rw [hm']).mono hs'
    next mods rest''' hm =>
    obtain ⟨us₄, hs₄, rfl, hm'⟩ := hmods.read hm
    have hdown : (inner.map (List.map (Component.down S.lines))).getD [] =
        (inner.getD []).map (Component.down S.lines) := by
      cases inner <;> rfl
    simp only [hm', hplace, hdown, id]
    rw [← Component.down]
    exact .ok (hs₄.trans hs')

end

end UiMarkup.Parser
