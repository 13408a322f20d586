import UiMarkup.Proofs.Parsing

/-!
# How reading ends

Whatever reading comes to, it takes tokens off the front and never passes the end token. A failure
reports the token at which reading stands, or the unclosed string that it has just taken. An integer
with too many digits is one of the tokens.

* `Ended ts`: the tokens end with their only end token, as those of a source do.
* `Takes ts rest`: reading may go from `ts` to `rest`.
* `Ends ts r`: how reading `ts` may end, with one `ends_*` lemma for each function of the parser.
* `ends_call`: a component that has a name ends after it.
-/

namespace UiMarkup.Parser

/-! ## Endings -/

/-- The tokens `rest` are what remains of `ts` after some tokens before the end token. -/
def Takes (ts rest : List Token) : Prop :=
  ∃ used, ts = used ++ rest ∧ ∀ t ∈ used, t.kind ≠ .eof

/-- The last of the tokens is an end token, and no other one is. -/
def Ended (ts : List Token) : Prop :=
  ∃ us last, ts = us ++ [last] ∧ last.kind = .eof ∧ ∀ t ∈ us, t.kind ≠ .eof

/-- An integer with the given number of digits, which are too many. -/
def Oversized (digits : Nat) (t : Token) : Prop :=
  t.kind = .number ∧ '.' ∉ t.text.toList ∧ t.text.toList.length = digits ∧
    Literal.maxIntegerDigits < digits

/-- How reading the tokens `ts` may end. -/
inductive Ends {α : Type} (ts : List Token) : Step α → Prop where
  | ok {x : α} {rest : List Token} (h : Takes ts rest) : Ends ts (.ok (x, rest))
  /-- A failure reports the token at which reading stands. -/
  | failure {f : Failure} (h : Takes ts f.rest) (hp : f.position = (current f.rest).position) :
      Ends ts (.error (.failure f))
  /-- A string that is not closed is taken, and the failure reports it. -/
  | unclosed {f : Failure} {t : Token} (h : Takes ts (t :: f.rest)) (hk : t.kind = .string)
      (hp : f.position = t.position) : Ends ts (.error (.failure f))
  | tooDeep (position : Nat) : Ends ts (.error (.tooDeep position))
  | oversized {digits : Nat} {t : Token} {rest : List Token} (h : Takes ts (t :: rest))
      (ht : Oversized digits t) : Ends ts (.error (.oversizedInteger digits))

theorem Takes.refl (ts : List Token) : Takes ts ts :=
  ⟨[], rfl, by simp⟩

theorem Takes.trans {ts ts' ts'' : List Token} (h : Takes ts ts') (h' : Takes ts' ts'') :
    Takes ts ts'' := by
  obtain ⟨used, rfl, hused⟩ := h
  obtain ⟨used', rfl, hused'⟩ := h'
  refine ⟨used ++ used', by simp, fun t ht => ?_⟩
  exact (List.mem_append.mp ht).elim (hused t) (hused' t)

theorem takes_cons {t : Token} (h : t.kind ≠ .eof) (ts : List Token) : Takes (t :: ts) ts :=
  ⟨[t], rfl, by simpa using h⟩

theorem takes_eat? {symbol : String} {ts rest : List Token} (h : eat? symbol ts = some rest) :
    Takes ts rest := by
  obtain ⟨t, rfl, ht⟩ := eat?_eq_some h
  exact takes_cons (by simp [(Token.isSymbol_iff.mp ht).1]) rest

/-- What remains of a token list still has its end token. -/
theorem Ended.takes {ts rest : List Token} (h : Ended ts) (htake : Takes ts rest) :
    Ended rest := by
  obtain ⟨us, last, rfl, hlast, hus⟩ := h
  obtain ⟨used, heq, hused⟩ := htake
  rcases List.eq_nil_or_concat rest with rfl | ⟨rest', last', rfl⟩
  · refine absurd hlast (hused last ?_)
    rw [← List.append_nil used, ← heq]
    simp
  · rw [List.concat_eq_append, ← List.append_assoc] at heq
    obtain ⟨rfl, hsingle⟩ := List.append_inj' heq rfl
    obtain rfl := List.singleton_inj.mp hsingle
    exact ⟨rest', last, List.concat_eq_append, hlast, fun t ht => hus t (by simp [ht])⟩

theorem Ended.drop {ts : List Token} (h : Ended ts) {i : Nat} (hi : i < ts.length) :
    Ended (ts.drop i) := by
  obtain ⟨us, last, rfl, hlast, hus⟩ := h
  simp only [List.length_append, List.length_singleton] at hi
  refine ⟨us.drop i, last, ?_, hlast, fun t ht => hus t (List.mem_of_mem_drop ht)⟩
  rw [List.drop_append_of_le_length (by omega)]

theorem Ended.ne_nil {ts : List Token} (h : Ended ts) : ts ≠ [] := by
  obtain ⟨us, last, rfl, -⟩ := h
  simp

namespace Ends

variable {α β : Type} {ts ts' : List Token} {r : Step α}

/-- An ending further on is an ending of the whole. -/
theorem mono (h : Ends ts' r) (hts : Takes ts ts') : Ends ts r := by
  cases h with
  | ok h => exact .ok (hts.trans h)
  | failure h hp => exact .failure (hts.trans h) hp
  | unclosed h hk hp => exact .unclosed (hts.trans h) hk hp
  | tooDeep position => exact .tooDeep position
  | oversized h ht => exact .oversized (hts.trans h) ht

/-- A stop is passed on as it is. -/
theorem of_error {stop : Stop} (h : Ends ts r) (hr : r = .error stop) :
    Ends ts (.error stop : Step β) := by
  subst hr
  cases h with
  | failure h hp => exact .failure h hp
  | unclosed h hk hp => exact .unclosed h hk hp
  | tooDeep position => exact .tooDeep position
  | oversized h ht => exact .oversized h ht

theorem takes {x : α} {rest : List Token} (h : Ends ts r) (hr : r = .ok (x, rest)) :
    Takes ts rest := by
  subst hr
  cases h with
  | ok h => exact h

theorem fail (cause : Cause) (ts : List Token) : Ends ts (Parser.fail cause ts : Step α) :=
  .failure (.refl ts) rfl

end Ends

/-! ## Arguments -/

theorem takes_dottedNames (ts : List Token) : Takes ts (dottedNames ts).2 := by
  obtain ⟨used, hts, hdotted⟩ := dottedNames_sound ts
  exact ⟨used, hts, Grammar.dotted_tokens hdotted⟩

/-- A number cannot be read if it is an integer with too many digits, and only then. -/
theorem readNumber_eq_error_iff {t : Token} (hk : t.kind = .number) {digits : Nat} :
    Literal.readNumber t.text = .error digits ↔ Oversized digits t := by
  constructor
  · intro h
    unfold Literal.readNumber at h
    rw [List.span_eq_takeWhile_dropWhile] at h
    dsimp only at h
    split at h
    · next hnil =>
      have hpoint : '.' ∉ t.text.toList := by
        intro hmem
        simpa using List.dropWhile_eq_nil_iff.mp hnil '.' hmem
      have hspan := span_of_not_mem_point hpoint
      rw [List.span_eq_takeWhile_dropWhile] at hspan
      rw [(Prod.mk.inj hspan).1] at h
      split at h
      · cases h
      · next hle =>
        obtain rfl : _ = digits := by simpa using h
        exact ⟨hk, hpoint, rfl, by omega⟩
    · cases h
  · rintro ⟨-, hpoint, rfl, hlong⟩
    unfold Literal.readNumber
    simp only [span_of_not_mem_point hpoint]
    rw [if_neg (by omega)]

theorem ends_numeral (negative : Bool) {t : Token} (hk : t.kind = .number) (rest : List Token) :
    Ends (t :: rest) (numeral negative t rest) := by
  unfold numeral
  split
  · exact .ok (takes_cons (by simp [hk]) rest)
  · next digits hn => exact .oversized (.refl _) ((readNumber_eq_error_iff hk).mp hn)

theorem ends_argument (p : Profile) (ts : List Token) : Ends ts (argument p ts) := by
  unfold argument
  split
  · next t rest hneg =>
    obtain ⟨minus, rfl, hm, -, hk⟩ := negated?_eq_some hneg
    exact (ends_numeral true hk rest).mono (takes_cons (by simp [hm]) _)
  · cases ts with
    | nil => exact .fail _ []
    | cons t rest =>
      dsimp only
      split
      · next hk =>
        split
        · exact .ok (takes_cons (by simp [hk]) rest)
        · exact .unclosed (.refl _) hk rfl
      · next hk => exact ends_numeral false hk rest
      · next hk =>
        have htake := takes_cons (show t.kind ≠ .eof by simp [hk]) rest
        split
        · exact .ok (htake.trans (takes_dottedNames rest))
        · exact .ok htake
      all_goals exact .fail _ _

theorem ends_arguments (p : Profile) (ts : List Token) : Ends ts (arguments p ts) := by
  fun_induction arguments p ts with
  | case1 ts stop ha => exact (ends_argument p ts).of_error ha
  | case2 ts e rest ha rest' hc rest'' hp =>
    have htake := (ends_argument p ts).takes ha
    exact .ok (htake.trans ((takes_eat? hc).trans (takes_eat? hp)))
  | case3 ts e rest ha rest' hc hp stop hr ih =>
    have htake := (ends_argument p ts).takes ha
    exact (ih.of_error hr).mono (htake.trans (takes_eat? hc))
  | case4 ts e rest ha rest' hc hp es rest'' hr ih =>
    have htake := (ends_argument p ts).takes ha
    exact .ok (htake.trans ((takes_eat? hc).trans (ih.takes hr)))
  | case5 ts e rest ha hc rest' hp =>
    exact .ok (((ends_argument p ts).takes ha).trans (takes_eat? hp))
  | case6 ts e rest ha hc hp hk | case7 ts e rest ha hc hp hk =>
    exact (Ends.fail _ rest).mono ((ends_argument p ts).takes ha)

theorem ends_argumentList (p : Profile) (ts : List Token) : Ends ts (argumentList p ts) := by
  unfold argumentList
  split
  · next rest hp => exact .ok (takes_eat? hp)
  · exact ends_arguments p ts

/-! ## Modifiers -/

theorem ends_identifier (missing : Cause) (ts : List Token) :
    Ends ts (identifier missing ts) := by
  cases ts with
  | nil => exact .fail missing []
  | cons t ts =>
    rw [identifier]
    split
    · next hk => exact .ok (takes_cons (by simp [beq_iff_eq.mp hk]) ts)
    · exact .fail missing _

theorem ends_modifier (p : Profile) (ts : List Token) : Ends ts (modifier p ts) := by
  unfold modifier
  split
  · next stop hi => exact (ends_identifier _ ts).of_error hi
  next name rest hi =>
  have hname := (ends_identifier _ ts).takes hi
  split
  · exact (Ends.fail _ rest).mono hname
  next rest' hp =>
  have hopen := hname.trans (takes_eat? hp)
  split
  · next stop ha => exact ((ends_argumentList p rest').of_error ha).mono hopen
  · next args rest'' ha => exact .ok (hopen.trans ((ends_argumentList p rest').takes ha))

theorem ends_modifiers (p : Profile) (ts : List Token) : Ends ts (modifiers p ts) := by
  fun_induction modifiers p ts with
  | case1 ts hd => exact .ok (.refl ts)
  | case2 ts rest hd stop hm =>
    exact ((ends_modifier p rest).of_error hm).mono (takes_eat? hd)
  | case3 ts rest hd m rest' hm stop hr ih =>
    have htake := (takes_eat? hd).trans ((ends_modifier p rest).takes hm)
    exact (ih.of_error hr).mono htake
  | case4 ts rest hd m rest' hm ms rest'' hr ih =>
    have htake := (takes_eat? hd).trans ((ends_modifier p rest).takes hm)
    exact .ok (htake.trans (ih.takes hr))

/-! ## Components -/

theorem ends_block {entry : List Token → Step Component}
    (hentry : ∀ ts, startsInBlock ts → Ends ts (entry ts)) (owner : String) (ts : List Token) :
    Ends ts (block entry owner ts) := by
  fun_induction block entry owner ts with
  | case1 ts rest hr => exact .ok (takes_eat? hr)
  | case3 ts hr hk hs stop hc => exact (hentry ts hs).of_error hc
  | case4 ts hr hk hs c rest hc hlt stop hb ih =>
    exact (ih.of_error hb).mono ((hentry ts hs).takes hc)
  | case5 ts hr hk hs c rest hc hlt cs rest' hb ih =>
    exact .ok (((hentry ts hs).takes hc).trans (ih.takes hb))
  | case2 | case6 | case7 => exact .fail _ _

theorem ends_argumentPart (p : Profile) (ts : List Token) : Ends ts (argumentPart p ts) := by
  unfold argumentPart
  split
  · exact .ok (.refl ts)
  next rest hp =>
  have hopen := takes_eat? hp
  split
  · next stop ha => exact ((ends_argumentList p rest).of_error ha).mono hopen
  · next args rest' ha => exact .ok (hopen.trans ((ends_argumentList p rest).takes ha))

theorem ends_blockPart {entry : List Token → Step Component}
    (hentry : ∀ ts, startsInBlock ts → Ends ts (entry ts)) (owner : String) (ts : List Token) :
    Ends ts (blockPart entry owner ts) := by
  unfold blockPart
  split
  · exact .ok (.refl ts)
  next rest hl =>
  have hopen := takes_eat? hl
  split
  · next stop hb => exact ((ends_block hentry owner rest).of_error hb).mono hopen
  · next cs rest' hb => exact .ok (hopen.trans ((ends_block hentry owner rest).takes hb))

/-- Reading a component that has a name ends after the name. -/
theorem ends_call (ctx : Context) (depth : Nat) {name : Token} (hn : name.kind = .identifier)
    (ts : List Token) : Ends ts (component ctx depth (name :: ts)) := by
  induction depth generalizing name ts with
  | zero => exact .tooDeep _
  | succ depth ih =>
    have hentry (us : List Token) (hs : startsInBlock us) : Ends us (component ctx depth us) := by
      unfold startsInBlock at hs
      split at hs
      · next name' next us =>
        rw [Bool.and_eq_true] at hs
        have hn' := Token.kind_of_isCapitalised hs.1
        exact (ih hn' _).mono (takes_cons (by simp [hn']) _)
      · cases hs
    rw [component, identifier_cons hn]
    dsimp only
    split
    · next stop ha => exact (ends_argumentPart _ ts).of_error ha
    next args rest ha =>
    have hargs := (ends_argumentPart _ ts).takes ha
    split
    · next stop hb => exact ((ends_blockPart hentry _ rest).of_error hb).mono hargs
    next inner rest' hb =>
    have hblock := hargs.trans ((ends_blockPart hentry _ rest).takes hb)
    split
    · exact (Ends.fail _ rest').mono hblock
    split
    · next stop hm => exact ((ends_modifiers _ rest').of_error hm).mono hblock
    · next ms rest'' hm => exact .ok (hblock.trans ((ends_modifiers _ rest').takes hm))

end UiMarkup.Parser
