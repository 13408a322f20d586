import Mathlib.Data.List.TakeDrop
import Mathlib.Data.List.TakeWhile
import UiMarkup.Markup.Parser
import UiMarkup.Proofs.Grammar

/-!
# The parser accepts exactly its grammar

* `component_sound`: what is read is derived by the tokens that reading consumed, and the token at
  which reading stands cannot extend the derivation.
* `component_complete`: derived tokens that nothing extends are read as what they derive, unless the
  component is higher than the depth allows; then reading stops for good.
* `component_reads_iff_derives`: both together, by the indices at which reading starts and stops.
-/

namespace UiMarkup

namespace Token

theorem isSymbol_iff {t : Token} {s : String} :
    t.isSymbol s ↔ t.kind = .symbol ∧ t.text = s := by
  simp [isSymbol]

/-- A token is one symbol at most. -/
theorem isSymbol_unique {t : Token} {s s' : String} (h : t.isSymbol s) (hne : s ≠ s') :
    t.isSymbol s' = false := by
  obtain ⟨-, hs⟩ := isSymbol_iff.mp h
  simp [isSymbol, hs, hne]

theorem isSymbol_of_kind_ne {t : Token} (h : t.kind ≠ .symbol) (s : String) :
    t.isSymbol s = false := by
  simp [isSymbol, h]

theorem kind_of_isCapitalised {t : Token} (h : t.isCapitalised) : t.kind = .identifier := by
  simp only [isCapitalised, Bool.and_eq_true, beq_iff_eq] at h
  exact h.1

end Token

namespace Parser

open Grammar

/-! ## Tokens -/

theorem eat?_eq_some {symbol : String} {ts rest : List Token} (h : eat? symbol ts = some rest) :
    ∃ t, ts = t :: rest ∧ t.isSymbol symbol := by
  cases ts with
  | nil => simp [eat?] at h
  | cons t ts =>
    simp only [eat?, Option.ite_none_right_eq_some, Option.some.injEq] at h
    exact ⟨t, by rw [h.2], h.1⟩

@[simp] theorem eat?_cons {t : Token} {symbol : String} (h : t.isSymbol symbol) (ts : List Token) :
    eat? symbol (t :: ts) = some ts := by
  simp [eat?, h]

theorem eat?_eq_none {symbol : String} {ts : List Token}
    (h : ¬ (current ts).isSymbol symbol) : eat? symbol ts = none := by
  cases ts with
  | nil => rfl
  | cons t ts => simpa [eat?, current] using h

/-- The current token is not the symbol that could not be eaten. -/
theorem current_of_eat?_eq_none {symbol : String} {ts : List Token} (h : eat? symbol ts = none) :
    ¬ (current ts).isSymbol symbol := by
  cases ts with
  | nil => simp [current, Token.isSymbol, Token.endOfText]
  | cons t ts => simpa [eat?, current] using h

theorem identifier_eq_ok {missing : Cause} {ts rest : List Token} {t : Token}
    (h : identifier missing ts = .ok (t, rest)) : ts = t :: rest ∧ t.kind = .identifier := by
  cases ts with
  | nil => simp [identifier, fail] at h
  | cons t' ts =>
    by_cases hk : t'.kind = .identifier
    · simp only [identifier, hk, beq_self_eq_true, ↓reduceIte, Except.ok.injEq,
        Prod.mk.injEq] at h
      obtain ⟨rfl, rfl⟩ := h
      exact ⟨rfl, hk⟩
    · simp [identifier, hk, fail] at h

theorem identifier_cons {missing : Cause} {t : Token} (h : t.kind = .identifier)
    (ts : List Token) : identifier missing (t :: ts) = .ok (t, ts) := by
  simp [identifier, h]

/-! ## Literals -/

/-- Decoding reads exactly the units before a closing quote. -/
theorem decodeBody?_eq_some {quote : Char} {s v : List Char} :
    Literal.decodeBody? quote s = some v ↔ ∃ body, s = body ++ [quote] ∧ Units body v := by
  constructor
  · intro h
    fun_induction Literal.decodeBody? quote s generalizing v with
    | case1 => simp at h
    | case2 =>
      obtain rfl : [] = v := by simpa using h
      exact ⟨[], rfl, .nil⟩
    | case3 => simp at h
    | case4 c s ih =>
      obtain ⟨v', hv', rfl⟩ := Option.map_eq_some_iff.mp h
      obtain ⟨body, rfl, hu⟩ := ih hv'
      exact ⟨_, rfl, .escape hu⟩
    | case5 c s hnil hesc ih =>
      obtain ⟨v', hv', rfl⟩ := Option.map_eq_some_iff.mp h
      obtain ⟨body, rfl, hu⟩ := ih hv'
      refine ⟨_, rfl, .plain ?_ hu⟩
      rintro rfl
      cases body <;> simp at hesc
  · rintro ⟨body, rfl, hu⟩
    induction hu with
    | nil => simp [Literal.decodeBody?]
    | @plain c s v hc _ ih =>
      obtain ⟨d, rest, hd⟩ : ∃ d rest, s ++ [quote] = d :: rest := by
        cases s <;> simp
      simp only [List.cons_append, hd] at ih ⊢
      rw [Literal.decodeBody?, ih]
      · rfl
      · simp
      · simpa using hc
    | escape _ ih => simp [Literal.decodeBody?, ih]

theorem decodeString?_eq_some {text value : String} :
    Literal.decodeString? text = some value ↔ ClosedString text value := by
  unfold Literal.decodeString? ClosedString
  cases text.toList with
  | nil => simp
  | cons quote s =>
    simp only [Option.map_eq_some_iff, decodeBody?_eq_some, List.cons.injEq]
    constructor
    · rintro ⟨v, ⟨body, rfl, hu⟩, rfl⟩
      exact ⟨quote, body, ⟨rfl, rfl⟩, by simpa using hu⟩
    · rintro ⟨_, body, ⟨rfl, rfl⟩, hu⟩
      exact ⟨value.toList, ⟨body, rfl, hu⟩, by simp⟩

theorem span_of_not_mem_point {s : List Char} (h : '.' ∉ s) : s.span (· != '.') = (s, []) := by
  rw [List.span_eq_takeWhile_dropWhile, List.takeWhile_eq_self_iff.mpr,
    List.dropWhile_eq_nil_iff.mpr]
  all_goals
    intro c hmem
    simp only [bne_iff_ne, ne_eq]
    rintro rfl
    exact h hmem

/-- A number token is read as what it denotes, unless it has too many digits. -/
theorem readNumber_eq_ok {t : Token} {n : Number} (hk : t.kind = .number) (hc : Convertible t)
    (h : Denotes t.text n) : Literal.readNumber t.text = .ok n := by
  unfold Literal.readNumber
  cases h with
  | int hpoint =>
    simp only [span_of_not_mem_point hpoint]
    rw [if_pos (hc hk hpoint)]
  | @real whole fraction hw htext =>
    have hall : ∀ c ∈ whole, (c != '.') = true := by
      intro c hmem
      simp only [bne_iff_ne, ne_eq]
      rintro rfl
      exact hw hmem
    have hspan : t.text.toList.span (· != '.') = (whole, '.' :: fraction) := by
      rw [htext, List.span_eq_takeWhile_dropWhile, List.takeWhile_append_of_pos hall,
        List.dropWhile_append_of_pos hall]
      simp
    simp only [hspan]

/-- What is read from a number token is what it denotes. -/
theorem denotes_of_readNumber {text : String} {n : Number} (h : Literal.readNumber text = .ok n) :
    Denotes text n := by
  unfold Literal.readNumber at h
  rw [List.span_eq_takeWhile_dropWhile] at h
  have hparts := List.takeWhile_append_dropWhile (p := (· != '.')) (l := text.toList)
  have hw : '.' ∉ text.toList.takeWhile (· != '.') := by
    intro hmem
    have := List.mem_takeWhile_imp hmem
    simp at this
  cases hdrop : text.toList.dropWhile (· != '.') with
  | nil =>
    rw [hdrop, List.append_nil] at hparts
    rw [hparts] at h hw
    simp only [hdrop] at h
    split at h
    · obtain rfl : _ = n := by simpa using h
      exact .int hw
    · simp at h
  | cons c fraction =>
    have hc : c = '.' := by
      have := List.head_dropWhile_not (· != '.') (l := text.toList) (by simp [hdrop])
      simpa [hdrop] using this
    subst hc
    simp only [hdrop] at h
    obtain rfl : _ = n := by simpa using h
    rw [hdrop] at hparts
    exact .real hw hparts.symm

/-! ## Arguments -/

theorem dottedNames_sound (ts : List Token) :
    ∃ used, ts = used ++ (dottedNames ts).2 ∧ Dotted used (dottedNames ts).1 := by
  fun_induction dottedNames ts with
  | case1 dot name ts h names rest hrec ih =>
    simp only [Bool.and_eq_true, beq_iff_eq] at h
    obtain ⟨used, hts, hd⟩ := ih
    simp only [hrec] at hts hd
    exact ⟨dot :: name :: used, by simp [← hts], .cons h.1 h.2 hd⟩
  | case2 => exact ⟨[], rfl, .nil⟩
  | case3 => exact ⟨[], rfl, .nil⟩

theorem dottedNames_complete {used rest : List Token} {names : List String} (h : Dotted used names)
    (hrest : ¬ (current rest).isSymbol ".") : dottedNames (used ++ rest) = (names, rest) := by
  induction h with
  | nil =>
    fun_cases dottedNames rest with
    | case1 dot name ts hdot => simp_all [current]
    | case2 dot name ts hdot => simp
    | case3 ts hts => simp
  | cons hd hn _ ih => simp [dottedNames, hd, hn, ih]

theorem negated?_eq_some {ts rest : List Token} {t : Token} (h : negated? ts = some (t, rest)) :
    ∃ minus, ts = minus :: t :: rest ∧ minus.kind = .unknown ∧ minus.text = "-" ∧
      t.kind = .number := by
  fun_cases negated? ts with
  | case1 minus t' rest' hc =>
    simp only [negated?, hc, ↓reduceIte, Option.some.injEq, Prod.mk.injEq] at h
    obtain ⟨rfl, rfl⟩ := h
    simp only [Bool.and_eq_true, beq_iff_eq] at hc
    exact ⟨minus, rfl, hc.1.1, hc.1.2, hc.2⟩
  | case2 minus t' rest' hc => simp [negated?, hc] at h
  | case3 => simp_all [negated?]

theorem negated?_eq_none {t : Token} (h : t.kind ≠ .unknown) (ts : List Token) :
    negated? (t :: ts) = none := by
  cases ts <;> simp [negated?, h]

theorem numeral_sound {negative : Bool} {t : Token} {rest rest' : List Token} {e : Expr}
    (h : numeral negative t rest = .ok (e, rest')) :
    rest' = rest ∧ ∃ n, Denotes t.text n ∧ e = .number (if negative then n.neg else n) := by
  unfold numeral at h
  split at h
  · next n hn =>
    simp only [Except.ok.injEq, Prod.mk.injEq] at h
    exact ⟨h.2.symm, n, denotes_of_readNumber hn, h.1.symm⟩
  · simp at h

theorem numeral_complete {t : Token} {n : Number} (hk : t.kind = .number) (hc : Convertible t)
    (h : Denotes t.text n) (negative : Bool) (rest : List Token) :
    numeral negative t rest = .ok (.number (if negative then n.neg else n), rest) := by
  simp [numeral, readNumber_eq_ok hk hc h]

/-- An argument that is read is derived. -/
theorem argument_sound {p : Profile} {ts rest : List Token} {e : Expr}
    (h : argument p ts = .ok (e, rest)) : ∃ used, ts = used ++ rest ∧ Argument p used e := by
  unfold argument at h
  split at h
  · next t rest' hneg =>
    obtain ⟨minus, rfl, hm, hs, hk⟩ := negated?_eq_some hneg
    obtain ⟨rfl, n, hn, rfl⟩ := numeral_sound h
    exact ⟨[minus, t], rfl, .negative hm hs hk hn⟩
  · cases ts with
    | nil => simp [fail] at h
    | cons t ts =>
      dsimp only at h
      split at h
      · next hk =>
        split at h
        · next value hv =>
          simp only [Except.ok.injEq, Prod.mk.injEq] at h
          obtain ⟨rfl, rfl⟩ := h
          exact ⟨[t], rfl, .text hk (decodeString?_eq_some.mp hv)⟩
        · simp at h
      · next hk =>
        obtain ⟨rfl, n, hn, rfl⟩ := numeral_sound h
        exact ⟨[t], rfl, .number hk hn⟩
      · next hk =>
        simp only [Except.ok.injEq, Prod.mk.injEq] at h
        obtain ⟨rfl, rfl⟩ := h
        by_cases hp : p = .extended
        · obtain ⟨used, hts, hd⟩ := dottedNames_sound ts
          refine ⟨t :: used, by simp [hp, ← hts], ?_⟩
          simpa [hp] using Argument.reference (p := p) hk hd (fun _ => hp)
        · refine ⟨[t], by simp [hp], ?_⟩
          simpa [hp] using Argument.reference (p := p) hk .nil (by simp)
      all_goals simp [fail] at h

/-- A derived argument is read, unless a dot follows or an integer has too many digits. -/
theorem argument_complete {p : Profile} {used rest : List Token} {e : Expr}
    (h : Argument p used e) (hc : ∀ t ∈ used, Convertible t)
    (hrest : ¬ (current rest).isSymbol ".") : argument p (used ++ rest) = .ok (e, rest) := by
  cases h with
  | text hk hs =>
    simp [argument, negated?_eq_none, hk, decodeString?_eq_some.mpr hs]
  | number hk hn =>
    simp [argument, negated?_eq_none, hk, numeral_complete hk (hc _ (by simp)) hn]
  | negative hm hs hk hn =>
    simp [argument, negated?, hm, hs, hk, numeral_complete hk (hc _ (by simp)) hn]
  | @reference t ts names hk hd hp =>
    by_cases hext : p = .extended
    · simp [argument, negated?_eq_none, hk, hext, dottedNames_complete hd hrest]
    · obtain rfl : ts = [] := by
        by_contra hne
        exact hext (hp hne)
      cases hd
      simp [argument, negated?_eq_none, hk, hext]

/-- The first token of an argument is no symbol. -/
theorem argument_head {p : Profile} {used : List Token} {e : Expr} (h : Argument p used e) :
    ∃ t ts, used = t :: ts ∧ t.kind ≠ .symbol := by
  cases h with
  | text hk _ | number hk _ => exact ⟨_, _, rfl, by simp [hk]⟩
  | negative hm _ _ _ => exact ⟨_, _, rfl, by simp [hm]⟩
  | reference hk _ _ => exact ⟨_, _, rfl, by simp [hk]⟩

theorem arguments_head {p : Profile} {used : List Token} {es : List Expr}
    (h : Arguments p used es) : ∃ t ts, used = t :: ts ∧ t.kind ≠ .symbol := by
  cases h with
  | last h => exact argument_head h
  | trailing h _ | more h _ _ =>
    obtain ⟨t, ts, rfl, hk⟩ := argument_head h
    exact ⟨t, _, rfl, hk⟩

theorem arguments_sound {p : Profile} {ts rest : List Token} {es : List Expr}
    (h : arguments p ts = .ok (es, rest)) :
    ∃ used r, ts = used ++ r :: rest ∧ Arguments p used es ∧ r.isSymbol ")" := by
  fun_induction arguments p ts generalizing es rest with
  | case1 | case3 | case6 | case7 => simp [fail] at h
  | case2 ts e rest₁ ha rest₂ hc rest₃ hp =>
    simp only [Except.ok.injEq, Prod.mk.injEq] at h
    obtain ⟨rfl, rfl⟩ := h
    obtain ⟨used, rfl, hused⟩ := argument_sound ha
    obtain ⟨comma, rfl, hcomma⟩ := eat?_eq_some hc
    obtain ⟨r, rfl, hr⟩ := eat?_eq_some hp
    exact ⟨used ++ [comma], r, by simp, .trailing hused hcomma, hr⟩
  | case4 ts e rest₁ ha rest₂ hc hp es' rest₃ hrec ih =>
    simp only [Except.ok.injEq, Prod.mk.injEq] at h
    obtain ⟨rfl, rfl⟩ := h
    obtain ⟨used, rfl, hused⟩ := argument_sound ha
    obtain ⟨comma, rfl, hcomma⟩ := eat?_eq_some hc
    obtain ⟨used', r, rfl, hused', hr⟩ := ih hrec
    exact ⟨used ++ comma :: used', r, by simp, .more hused hcomma hused', hr⟩
  | case5 ts e rest₁ ha hc rest₂ hp =>
    simp only [Except.ok.injEq, Prod.mk.injEq] at h
    obtain ⟨rfl, rfl⟩ := h
    obtain ⟨used, rfl, hused⟩ := argument_sound ha
    obtain ⟨r, rfl, hr⟩ := eat?_eq_some hp
    exact ⟨used, r, rfl, .last hused, hr⟩

theorem arguments_complete {p : Profile} {used : List Token} {es : List Expr} {r : Token}
    (h : Arguments p used es) (hc : ∀ t ∈ used, Convertible t) (hr : r.isSymbol ")")
    (rest : List Token) : arguments p (used ++ r :: rest) = .ok (es, rest) := by
  have hdot : ∀ {t : Token} {s : String}, t.isSymbol s → s ≠ "." → ∀ ts,
      ¬ (current (t :: ts)).isSymbol "." := by
    intro t s ht hs ts
    simp [current, Token.isSymbol_unique ht hs]
  induction h with
  | last h =>
    have ha := argument_complete h hc (hdot hr (by decide) rest)
    have hcomma : eat? "," (r :: rest) = none :=
      eat?_eq_none (by simp [current, Token.isSymbol_unique hr])
    rw [arguments, ha]
    dsimp only
    rw [hcomma]
    simp [hr]
  | @trailing ts e comma h hcomma =>
    have ha := argument_complete h (fun t ht => hc t (by simp [ht]))
      (hdot hcomma (by decide) (r :: rest))
    rw [List.append_assoc, List.singleton_append, arguments, ha]
    dsimp only
    rw [eat?_cons hcomma]
    simp [hr]
  | @more ts ts' e es comma h hcomma hs ih =>
    have ha := argument_complete h (fun t ht => hc t (by simp [ht]))
      (hdot hcomma (by decide) (ts' ++ r :: rest))
    have hrec := ih (fun t ht => hc t (by simp [ht]))
    -- The next argument does not start with a parenthesis, so the comma is not a trailing one.
    have hclose : eat? ")" (ts' ++ r :: rest) = none := by
      obtain ⟨t, tail, rfl, hk⟩ := arguments_head hs
      exact eat?_eq_none (by simp [current, Token.isSymbol_of_kind_ne hk])
    rw [List.append_assoc, List.cons_append, arguments, ha]
    dsimp only
    rw [eat?_cons hcomma]
    simp [hclose, hrec]

/-- Reading after the opening parenthesis finds the rest of an argument list. -/
theorem argumentList_sound {p : Profile} {l : Token} {ts rest : List Token} {es : List Expr}
    (hl : l.isSymbol "(") (h : argumentList p ts = .ok (es, rest)) :
    ∃ used, l :: ts = used ++ rest ∧ ArgumentList p used es := by
  unfold argumentList at h
  split at h
  · next rest' hp =>
    simp only [Except.ok.injEq, Prod.mk.injEq] at h
    obtain ⟨rfl, rfl⟩ := h
    obtain ⟨r, rfl, hr⟩ := eat?_eq_some hp
    exact ⟨[l, r], rfl, .empty hl hr⟩
  · obtain ⟨used, r, rfl, hused, hr⟩ := arguments_sound h
    exact ⟨l :: (used ++ [r]), by simp, .full hl hused hr⟩

/-- An argument list is an opening parenthesis and what reading after it takes. -/
theorem argumentList_complete {p : Profile} {used : List Token} {es : List Expr}
    (h : ArgumentList p used es) (hc : ∀ t ∈ used, Convertible t) :
    ∃ l ts, used = l :: ts ∧ l.isSymbol "(" ∧
      ∀ rest, argumentList p (ts ++ rest) = .ok (es, rest) := by
  cases h with
  | @empty l r hl hr => exact ⟨l, [r], rfl, hl, fun rest => by simp [argumentList, hr]⟩
  | @full l r ts es hl h hr =>
    refine ⟨l, ts ++ [r], rfl, hl, fun rest => ?_⟩
    have hargs := arguments_complete h (fun t ht => hc t (by simp [ht])) hr rest
    have hclose : eat? ")" (ts ++ r :: rest) = none := by
      obtain ⟨t, tail, rfl, hk⟩ := arguments_head h
      exact eat?_eq_none (by simp [current, Token.isSymbol_of_kind_ne hk])
    simp [argumentList, hclose, hargs]

/-! ## Modifiers -/

theorem modifier_sound {p : Profile} {ts rest : List Token} {m : Modifier}
    (h : modifier p ts = .ok (m, rest)) :
    ∃ name used args, ts = name :: (used ++ rest) ∧ name.kind = .identifier ∧
      ArgumentList p used args ∧ m = ⟨name.text, args⟩ := by
  unfold modifier at h
  split at h
  · simp at h
  · next name rest₁ hi =>
    split at h
    · simp [fail] at h
    · next rest₂ hp =>
      split at h
      · simp at h
      · next args rest₃ ha =>
        simp only [Except.ok.injEq, Prod.mk.injEq] at h
        obtain ⟨rfl, rfl⟩ := h
        obtain ⟨rfl, hk⟩ := identifier_eq_ok hi
        obtain ⟨l, rfl, hl⟩ := eat?_eq_some hp
        obtain ⟨used, hused, hargs⟩ := argumentList_sound hl ha
        exact ⟨name, used, args, by rw [hused], hk, hargs, rfl⟩

theorem modifiers_sound {p : Profile} {ts rest : List Token} {ms : List Modifier}
    (h : modifiers p ts = .ok (ms, rest)) :
    ∃ used, ts = used ++ rest ∧ Modifiers p used ms ∧ ¬ (current rest).isSymbol "." := by
  fun_induction modifiers p ts generalizing ms rest with
  | case1 ts hd =>
    simp only [Except.ok.injEq, Prod.mk.injEq] at h
    obtain ⟨rfl, rfl⟩ := h
    exact ⟨[], rfl, .nil, current_of_eat?_eq_none hd⟩
  | case2 | case3 => simp at h
  | case4 ts rest₁ hd m rest₂ hm ms' rest₃ hrec ih =>
    simp only [Except.ok.injEq, Prod.mk.injEq] at h
    obtain ⟨rfl, rfl⟩ := h
    obtain ⟨dot, rfl, hdot⟩ := eat?_eq_some hd
    obtain ⟨name, used, args, rfl, hk, hargs, rfl⟩ := modifier_sound hm
    obtain ⟨used', rfl, hms, hend⟩ := ih hrec
    exact ⟨dot :: name :: (used ++ used'), by simp, .cons hdot hk hargs hms, hend⟩

theorem modifiers_complete {p : Profile} {used rest : List Token} {ms : List Modifier}
    (h : Modifiers p used ms) (hc : ∀ t ∈ used, Convertible t)
    (hrest : ¬ (current rest).isSymbol ".") : modifiers p (used ++ rest) = .ok (ms, rest) := by
  induction h with
  | nil =>
    rw [List.nil_append, modifiers, eat?_eq_none hrest]
  | @cons dot name ts ts' args ms hd hn ha _ ih =>
    obtain ⟨l, tail, rfl, hl, hargs⟩ := argumentList_complete ha (fun t ht => hc t (by simp_all))
    have hmod : modifier p (name :: (l :: tail ++ ts') ++ rest) =
        .ok (⟨name.text, args⟩, ts' ++ rest) := by
      simp [modifier, identifier_cons hn, hl, hargs]
    have hrec := ih (fun t ht => hc t (by simp_all))
    rw [List.cons_append, modifiers, eat?_cons hd]
    dsimp only
    rw [hmod]
    simp [hrec]

/-! ## Components -/

/-- A component starts with its name and a token that opens a call. -/
theorem component_head {p : Profile} {locate : Nat → Place} {used : List Token} {c : Component}
    {isSealed : Bool} (h : Grammar.Component p locate used c isSealed) :
    ∃ name next tail, used = name :: next :: tail ∧ name.kind = .identifier ∧
      next.opensCall := by
  obtain ⟨hn, ha, hb, hsome, -⟩ := h
  cases ha with
  | present ha =>
    cases ha with
    | empty hl _ | full hl _ _ => exact ⟨_, _, _, rfl, hn, by simp [Token.opensCall, hl]⟩
  | absent =>
    cases hb with
    | present hl _ _ => exact ⟨_, _, _, rfl, hn, by simp [Token.opensCall, hl]⟩
    | absent => simp at hsome

theorem argumentPart_sound {p : Profile} {ts rest : List Token} {args : Option (List Expr)}
    (h : argumentPart p ts = .ok (args, rest)) :
    ∃ used, ts = used ++ rest ∧ ArgumentPart p used args := by
  unfold argumentPart at h
  split at h
  · simp only [Except.ok.injEq, Prod.mk.injEq] at h
    obtain ⟨rfl, rfl⟩ := h
    exact ⟨[], rfl, .absent⟩
  · next rest' hp =>
    split at h
    · simp at h
    · next es rest'' ha =>
      simp only [Except.ok.injEq, Prod.mk.injEq] at h
      obtain ⟨rfl, rfl⟩ := h
      obtain ⟨l, rfl, hl⟩ := eat?_eq_some hp
      obtain ⟨used, hused, hes⟩ := argumentList_sound hl ha
      exact ⟨used, hused, .present hes⟩

theorem argumentPart_complete {p : Profile} {used : List Token} {args : Option (List Expr)}
    (h : ArgumentPart p used args) (hc : ∀ t ∈ used, Convertible t) (rest : List Token)
    (hrest : args = none → ¬ (current rest).isSymbol "(") :
    argumentPart p (used ++ rest) = .ok (args, rest) := by
  cases h with
  | absent => simp [argumentPart, eat?_eq_none (hrest rfl)]
  | present h =>
    obtain ⟨l, ts, rfl, hl, hargs⟩ := argumentList_complete h hc
    simp [argumentPart, hl, hargs]

/-- What `entry` reads is derived, and what follows cannot extend it. -/
def EntrySound (ctx : Context) (entry : List Token → Step Component) : Prop :=
  ∀ ⦃ts rest : List Token⦄ ⦃c : Component⦄, entry ts = .ok (c, rest) →
    ∃ used isSealed, ts = used ++ rest ∧
      Grammar.Component ctx.profile ctx.locate used c isSealed ∧ Follow isSealed (current rest)

theorem block_sound {ctx : Context} {entry : List Token → Step Component} {owner : String}
    (hentry : EntrySound ctx entry) {ts rest : List Token} {cs : List Component}
    (h : block entry owner ts = .ok (cs, rest)) :
    ∃ used r, ts = used ++ r :: rest ∧ Entries ctx.profile ctx.locate used cs ∧
      r.isSymbol "\x7d" := by
  fun_induction block entry owner ts generalizing cs rest with
  | case1 ts rest' hr =>
    simp only [Except.ok.injEq, Prod.mk.injEq] at h
    obtain ⟨rfl, rfl⟩ := h
    obtain ⟨r, rfl, hsym⟩ := eat?_eq_some hr
    exact ⟨[], r, rfl, .nil, hsym⟩
  | case2 | case3 | case4 | case6 | case7 => simp [fail] at h
  | case5 ts _ _ hstart c rest₁ he hlt cs' rest₂ hrec ih =>
    simp only [Except.ok.injEq, Prod.mk.injEq] at h
    obtain ⟨rfl, rfl⟩ := h
    obtain ⟨used, isSealed, rfl, hcomp, -⟩ := hentry he
    obtain ⟨used', r, rfl, hes, hr⟩ := ih hrec
    obtain ⟨name, next, tail, rfl, -, -⟩ := component_head hcomp
    have hname : name.isCapitalised := by
      simp only [List.cons_append, startsInBlock, Bool.and_eq_true] at hstart
      exact hstart.1
    exact ⟨name :: (next :: tail ++ used'), r, by simp, .cons hname hcomp hes, hr⟩

theorem blockPart_sound {ctx : Context} {entry : List Token → Step Component} {owner : String}
    (hentry : EntrySound ctx entry) {ts rest : List Token} {inner : Option (List Component)}
    (h : blockPart entry owner ts = .ok (inner, rest)) :
    ∃ used, ts = used ++ rest ∧ Block ctx.profile ctx.locate used inner ∧
      (inner = none → ¬ (current rest).isSymbol "\x7b") := by
  unfold blockPart at h
  split at h
  · next hl =>
    simp only [Except.ok.injEq, Prod.mk.injEq] at h
    obtain ⟨rfl, rfl⟩ := h
    exact ⟨[], rfl, .absent, fun _ => current_of_eat?_eq_none hl⟩
  · next rest' hl =>
    split at h
    · simp at h
    · next cs rest'' hb =>
      simp only [Except.ok.injEq, Prod.mk.injEq] at h
      obtain ⟨rfl, rfl⟩ := h
      obtain ⟨l, rfl, hsym⟩ := eat?_eq_some hl
      obtain ⟨used, r, rfl, hes, hr⟩ := block_sound hentry hb
      exact ⟨l :: (used ++ [r]), by simp, .present hsym hes hr, by simp⟩

/-- **Soundness.** A component that is read is derived by the tokens that reading consumed, and the
token at which reading stands cannot extend the derivation. -/
theorem component_sound (ctx : Context) (depth : Nat) : EntrySound ctx (component ctx depth) := by
  induction depth with
  | zero => intro ts rest c h; simp [component] at h
  | succ depth ih =>
    intro ts rest c h
    unfold component at h
    split at h
    · simp at h
    next name rest₁ hi =>
    split at h
    · simp at h
    next args rest₂ ha =>
    split at h
    · simp at h
    next inner rest₃ hb =>
    split at h
    · simp [fail] at h
    next hsome =>
    split at h
    · simp at h
    next ms rest₄ hm =>
    simp only [Except.ok.injEq, Prod.mk.injEq] at h
    obtain ⟨rfl, rfl⟩ := h
    obtain ⟨rfl, hn⟩ := identifier_eq_ok hi
    obtain ⟨ts, rfl, hargs⟩ := argumentPart_sound ha
    obtain ⟨ts', rfl, hblock, hbrace⟩ := blockPart_sound ih hb
    obtain ⟨ts'', rfl, hms, hdot⟩ := modifiers_sound hm
    have hsome' : args.isSome ∨ inner.isSome := by
      cases args <;> cases inner <;> simp_all
    refine ⟨_, _, by simp, .call hn hargs hblock hsome' hms, hdot, fun hseal => ?_⟩
    -- Without a modifier, reading stands where it did after the block part.
    cases hms with
    | nil => cases inner <;> simp_all
    | cons => simp at hseal

/-- Reading something of the given height gives `x`, or stops for good if the depth falls short. -/
def ReadsWithin {α : Type} (depth height : Nat) (r : Step α) (x : α × List Token) : Prop :=
  (height ≤ depth → r = .ok x) ∧ (depth < height → ∃ position, r = .error (.tooDeep position))

/-- `entry` reads what is derived, if nothing extends the derivation. -/
def EntryComplete (ctx : Context) (depth : Nat) (entry : List Token → Step Component) : Prop :=
  ∀ ⦃used : List Token⦄ ⦃c : Component⦄ ⦃isSealed : Bool⦄,
    Grammar.Component ctx.profile ctx.locate used c isSealed → (∀ t ∈ used, Convertible t) →
    ∀ rest, Follow isSealed (current rest) →
      ReadsWithin depth c.height (entry (used ++ rest)) (c, rest)

/-- A symbol other than a dot or an opening brace, or an identifier, follows every component. -/
theorem follow_of_kind_ne {t : Token} (h : t.kind ≠ .symbol) (isSealed : Bool) :
    Follow isSealed t := by
  simp [Follow, Token.isSymbol_of_kind_ne h]

theorem follow_of_isSymbol {t : Token} {s : String} (h : t.isSymbol s) (hdot : s ≠ ".")
    (hbrace : s ≠ "\x7b") (isSealed : Bool) : Follow isSealed t := by
  simp [Follow, Token.isSymbol_unique h hdot, Token.isSymbol_unique h hbrace]

/-- Entries, or the closing brace after them, follow every component. -/
theorem follow_of_entries {p : Profile} {locate : Nat → Place} {used : List Token}
    {cs : List Component} {r : Token} (h : Entries p locate used cs) (hr : r.isSymbol "\x7d")
    (rest : List Token) (isSealed : Bool) : Follow isSealed (current (used ++ r :: rest)) := by
  cases h with
  | nil => exact follow_of_isSymbol hr (by decide) (by decide) isSealed
  | cons hn _ _ =>
    exact follow_of_kind_ne (by simp [current, Token.kind_of_isCapitalised hn]) isSealed

/-- Where a component starts, the block goes on with it. -/
theorem block_of_startsInBlock (entry : List Token → Step Component) (owner : String)
    {ts : List Token} (h : startsInBlock ts) :
    block entry owner ts =
      match entry ts with
      | .error stop => .error stop
      | .ok (c, rest) =>
        if rest.length < ts.length then
          match block entry owner rest with
          | .error stop => .error stop
          | .ok (cs, rest) => .ok (c :: cs, rest)
        else fail (.expectedComponent (current ts).text) ts := by
  have hk : (current ts).kind = .identifier := by
    unfold startsInBlock at h
    split at h
    · simp only [Bool.and_eq_true] at h
      exact Token.kind_of_isCapitalised h.1
    · simp at h
  have hbrace : eat? "\x7d" ts = none :=
    eat?_eq_none (by simp [Token.isSymbol_of_kind_ne, hk])
  rw [block]
  simp only [hbrace, hk, h, ↓reduceIte]
  rfl

theorem block_complete {ctx : Context} {depth : Nat} {entry : List Token → Step Component}
    (hentry : EntryComplete ctx depth entry) (owner : String) {used : List Token}
    {cs : List Component} {r : Token} (h : Entries ctx.profile ctx.locate used cs)
    (hc : ∀ t ∈ used, Convertible t) (hr : r.isSymbol "\x7d") (rest : List Token) :
    ReadsWithin depth (Component.heightAll cs) (block entry owner (used ++ r :: rest))
      (cs, rest) := by
  induction cs generalizing used with
  | nil =>
    cases h
    rw [List.nil_append, block]
    simp [ReadsWithin, hr, Component.heightAll]
  | cons c cs ih =>
    obtain _ | @⟨name, ts, ts', _, _, isSealed, hn, hcomp, hs⟩ := h
    have hfirst := hentry hcomp (fun t ht => hc t (by grind))
      (ts' ++ r :: rest) (follow_of_entries hs hr rest isSealed)
    have hrec := ih hs (fun t ht => hc t (by grind))
    obtain ⟨_, next, tail, heq, -, hopen⟩ := component_head hcomp
    obtain ⟨rfl, rfl⟩ := List.cons.inj heq
    have hstart : startsInBlock (name :: next :: tail ++ (ts' ++ r :: rest)) := by
      simp [startsInBlock, hn, hopen]
    have hblock := block_of_startsInBlock entry owner hstart
    simp only [List.cons_append, List.append_assoc] at hblock hfirst ⊢
    rw [hblock]
    constructor
    · intro hle
      simp only [Component.heightAll] at hle
      rw [hfirst.1 (by omega)]
      simp [hrec.1 (by omega)]
      omega
    · intro hlt
      simp only [Component.heightAll] at hlt
      by_cases hdeep : depth < c.height
      · obtain ⟨position, hstop⟩ := hfirst.2 hdeep
        exact ⟨position, by rw [hstop]⟩
      · obtain ⟨position, hstop⟩ := hrec.2 (by omega)
        refine ⟨position, ?_⟩
        rw [hfirst.1 (by omega)]
        simp [hstop]
        omega

theorem blockPart_complete {ctx : Context} {depth : Nat} {entry : List Token → Step Component}
    (hentry : EntryComplete ctx depth entry) (owner : String) {used : List Token}
    {inner : Option (List Component)} (h : Block ctx.profile ctx.locate used inner)
    (hc : ∀ t ∈ used, Convertible t) (rest : List Token)
    (hrest : inner = none → ¬ (current rest).isSymbol "\x7b") :
    ReadsWithin depth (Component.heightAll (inner.getD []))
      (blockPart entry owner (used ++ rest)) (inner, rest) := by
  cases h with
  | absent => simp [ReadsWithin, blockPart, eat?_eq_none (hrest rfl), Component.heightAll]
  | @present l r ts cs hl hs hr =>
    have hblock := block_complete hentry owner hs (fun t ht => hc t (by simp [ht])) hr rest
    simp only [List.cons_append, List.append_assoc, Option.getD_some]
    constructor
    · intro hle
      simp [blockPart, hl, hblock.1 hle]
    · intro hlt
      obtain ⟨position, hstop⟩ := hblock.2 hlt
      exact ⟨position, by simp [blockPart, hl, hstop]⟩

/-- What stands between the name and the block of a component without argument list opens a block,
so it opens no argument list. -/
theorem current_of_block {p : Profile} {locate : Nat → Place} {used : List Token}
    {inner : Option (List Component)} (h : Block p locate used inner) (hsome : inner.isSome)
    (rest : List Token) : ¬ (current (used ++ rest)).isSymbol "(" := by
  cases h with
  | absent => simp at hsome
  | present hl _ _ => simp [current, Token.isSymbol_unique hl]

/-- What follows a component without block opens no block. -/
theorem current_of_modifiers {p : Profile} {used rest : List Token} {ms : List Modifier}
    (h : Modifiers p used ms) (hrest : ms = [] → ¬ (current rest).isSymbol "\x7b") :
    ¬ (current (used ++ rest)).isSymbol "\x7b" := by
  cases h with
  | nil => exact hrest rfl
  | cons hd _ _ _ => simp [current, Token.isSymbol_unique hd]

/-- **Completeness.** Tokens that derive a component and that nothing extends are read as that
component, if it is not too high and no integer has too many digits. A component that is too high
stops reading for good. -/
theorem component_complete (ctx : Context) (depth : Nat) :
    EntryComplete ctx depth (component ctx depth) := by
  induction depth with
  | zero =>
    intro used c isSealed h hc rest hf
    have := c.height_pos
    exact ⟨fun hle => by omega, fun _ => ⟨_, rfl⟩⟩
  | succ depth ih =>
    intro used c isSealed h hc rest hf
    obtain @⟨name, ts, ts', ts'', args, inner, ms, hn, ha, hb, hsome, hm⟩ := h
    obtain ⟨hdot, hbrace⟩ := hf
    have hargs := argumentPart_complete ha (fun t ht => hc t (by simp [ht]))
      (ts' ++ (ts'' ++ rest))
      (fun hnone => current_of_block hb (by simpa [hnone] using hsome) _)
    have hblock := blockPart_complete ih name.text hb (fun t ht => hc t (by simp [ht]))
      (ts'' ++ rest)
      (fun hnone => current_of_modifiers hm fun hms => hbrace (by simp [hnone, hms]))
    have hmods := modifiers_complete hm (fun t ht => hc t (by simp [ht])) hdot
    have hparts : (args.isNone && inner.isNone) = false := by
      cases args <;> cases inner <;> simp_all
    simp only [List.cons_append, List.append_assoc, ReadsWithin, component, identifier_cons hn,
      hargs, Component.height]
    constructor
    · intro hle
      simp only [hblock.1 (by omega), hparts, Bool.false_eq_true, ↓reduceIte, hmods]
    · intro hlt
      obtain ⟨position, hstop⟩ := hblock.2 (by omega)
      exact ⟨position, by simp only [hstop]⟩

/-! ## Reading by indices -/

/-- Reading the token list from the index `start` on gives `c` and stops at the index `stop`. -/
def ReadsAt (ctx : Context) (depth : Nat) (ts : List Token) (start : Nat) (c : Component)
    (stop : Nat) : Prop :=
  ∃ rest, component ctx depth (ts.drop start) = .ok (c, rest) ∧ stop + rest.length = ts.length

/-- The tokens from the index `start` up to `stop` derive `c`, and the token at `stop` cannot extend
the derivation. -/
def DerivesAt (ctx : Context) (ts : List Token) (start : Nat) (c : Component) (stop : Nat) : Prop :=
  ∃ isSealed next, Grammar.Component ctx.profile ctx.locate (ts.extract start stop) c isSealed ∧
    ts[stop]? = some next ∧ Follow isSealed next

/-- Tokens before the end of a token list leave something over. -/
theorem rest_ne_nil {ts used rest : List Token} {start : Nat}
    (hend : ts.getLast?.map Token.kind = some .eof) (hused : ∀ t ∈ used, t.kind ≠ .eof)
    (hne : used ≠ []) (h : ts.drop start = used ++ rest) : rest ≠ [] := by
  rintro rfl
  rw [List.append_nil] at h
  have hlast : ts.getLast? = some (used.getLast hne) := by
    rw [← List.take_append_drop start ts, h, List.getLast?_append,
      List.getLast?_eq_some_getLast hne]
    rfl
  rw [hlast] at hend
  exact hused _ (List.getLast_mem hne) (by simpa using hend)

theorem mem_of_mem_extract {ts : List Token} {start stop : Nat} {t : Token}
    (h : t ∈ ts.extract start stop) : t ∈ ts := by
  rw [List.extract_eq_take_drop] at h
  exact List.mem_of_mem_drop (List.mem_of_mem_take h)

/-- The same tokens derive one component at most. -/
theorem component_unique {ctx : Context} {used : List Token} {c c' : Component}
    {isSealed isSealed' : Bool} (hc : ∀ t ∈ used, Convertible t)
    (h : Grammar.Component ctx.profile ctx.locate used c isSealed)
    (h' : Grammar.Component ctx.profile ctx.locate used c' isSealed') : c = c' := by
  have hfollow : ∀ b, Follow b (current []) := fun b => follow_of_kind_ne (by decide) b
  have hread := (component_complete ctx (max c.height c'.height) h hc [] (hfollow _)).1
    (Nat.le_max_left _ _)
  have hread' := (component_complete ctx (max c.height c'.height) h' hc [] (hfollow _)).1
    (Nat.le_max_right _ _)
  rw [hread] at hread'
  simpa using hread'

theorem derivesAt_of_readsAt {ctx : Context} {depth : Nat} {ts : List Token} {start stop : Nat}
    {c : Component} (hend : ts.getLast?.map Token.kind = some .eof)
    (h : ReadsAt ctx depth ts start c stop) : DerivesAt ctx ts start c stop := by
  obtain ⟨rest, hread, hstop⟩ := h
  obtain ⟨used, isSealed, hts, hcomp, hfollow⟩ := component_sound ctx depth hread
  obtain ⟨name, next, tail, hused, -, -⟩ := component_head hcomp
  have hrest := rest_ne_nil hend (component_tokens hcomp) (by simp [hused]) hts
  have hlen := congrArg List.length hts
  simp only [List.length_drop, List.length_append] at hlen
  have hpos : 0 < used.length := by simp [hused]
  have hextract : ts.extract start stop = used := by
    rw [List.extract_eq_take_drop, hts]
    exact List.take_left' (by omega)
  have hdrop : ts.drop stop = rest := by
    rw [show stop = start + used.length by omega, ← List.drop_drop, hts]
    simp
  refine ⟨isSealed, current rest, by rw [hextract]; exact hcomp, ?_, hfollow⟩
  obtain ⟨t, rest', rfl⟩ := List.exists_cons_of_ne_nil hrest
  rw [← List.head?_drop, hdrop]
  rfl

theorem readsAt_of_derivesAt {ctx : Context} {depth : Nat} {ts : List Token} {start stop : Nat}
    {c : Component}
    (hdepth : ∀ position, component ctx depth (ts.drop start) ≠ .error (.tooDeep position))
    (hints : ∀ t ∈ ts, Convertible t) (h : DerivesAt ctx ts start c stop) :
    ReadsAt ctx depth ts start c stop := by
  obtain ⟨isSealed, next, hcomp, hnext, hfollow⟩ := h
  obtain ⟨hstop, hget⟩ := List.getElem?_eq_some_iff.mp hnext
  have hlt : start < stop := by
    apply Nat.lt_of_not_le
    intro hle
    obtain ⟨_, _, _, hused, -, -⟩ := component_head hcomp
    simp [List.extract_eq_take_drop, Nat.sub_eq_zero_of_le hle] at hused
  have hts : ts.drop start = ts.extract start stop ++ ts.drop stop := by
    rw [List.extract_eq_take_drop, show stop = start + (stop - start) by omega, ← List.drop_drop]
    simp
  have hcurrent : current (ts.drop stop) = next := by
    rw [List.drop_eq_getElem_cons hstop]
    exact hget
  have hread := component_complete ctx depth hcomp
    (fun t ht => hints t (mem_of_mem_extract ht)) (ts.drop stop) (by rw [hcurrent]; exact hfollow)
  rw [← hts] at hread
  refine ⟨ts.drop stop, hread.1 ?_, by simp; omega⟩
  apply Nat.le_of_not_lt
  intro hdeep
  obtain ⟨position, hstop⟩ := hread.2 hdeep
  exact hdepth position hstop

/-- **The parser accepts exactly its grammar.** On a token list that ends with an end token, with
the nesting limit not met and all integers convertible, reading from `start` gives `c` and stops at
`stop` exactly if the tokens between them derive `c` and the token at `stop` cannot extend the
derivation. The tokens between two indices derive one component at most. -/
theorem component_reads_iff_derives (ctx : Context) (depth : Nat) (ts : List Token) (start : Nat)
    (hend : ts.getLast?.map Token.kind = some .eof)
    (hdepth : ∀ position, component ctx depth (ts.drop start) ≠ .error (.tooDeep position))
    (hints : ∀ t ∈ ts, Convertible t) :
    (∀ c stop, ReadsAt ctx depth ts start c stop ↔ DerivesAt ctx ts start c stop) ∧
      ∀ c c' isSealed isSealed' stop,
        Grammar.Component ctx.profile ctx.locate (ts.extract start stop) c isSealed →
        Grammar.Component ctx.profile ctx.locate (ts.extract start stop) c' isSealed' →
        c = c' := by
  constructor
  · intro c stop
    exact ⟨derivesAt_of_readsAt hend, readsAt_of_derivesAt hdepth hints⟩
  · intro c c' isSealed isSealed' stop h h'
    exact component_unique (fun t ht => hints t (mem_of_mem_extract ht)) h h'

/-- The tokens of `List { Text(-7,) }.font(a.b)`. -/
def nestedTokens : List Token :=
  [⟨.identifier, "List", 0⟩, ⟨.symbol, "\x7b", 5⟩, ⟨.identifier, "Text", 7⟩, ⟨.symbol, "(", 11⟩,
    ⟨.unknown, "-", 12⟩, ⟨.number, "7", 13⟩, ⟨.symbol, ",", 14⟩, ⟨.symbol, ")", 15⟩,
    ⟨.symbol, "\x7d", 17⟩, ⟨.symbol, ".", 18⟩, ⟨.identifier, "font", 19⟩, ⟨.symbol, "(", 23⟩,
    ⟨.identifier, "a", 24⟩, ⟨.symbol, ".", 25⟩, ⟨.identifier, "b", 26⟩, ⟨.symbol, ")", 27⟩,
    ⟨.eof, "", 28⟩]

/-- The component that `nestedTokens` derive, with all of it on one line. -/
def nestedComponent : Component :=
  ⟨"List", [], [⟨"Text", [.number (.int (-7))], [], [], ⟨1, 8⟩⟩], [⟨"font", [.reference "a.b"]⟩],
    ⟨1, 1⟩⟩

/-- The extended profile, for a source of one line. -/
def nestedContext : Context :=
  ⟨.extended, fun position => ⟨1, position + 1⟩⟩

theorem nestedTokens_derive :
    Grammar.Component nestedContext.profile nestedContext.locate (nestedTokens.extract 0 16)
      nestedComponent true := by
  have sym (s : String) (n : Nat) : Token.isSymbol ⟨.symbol, s, n⟩ s := by simp [Token.isSymbol]
  have ident (s : String) (n : Nat) : (⟨.identifier, s, n⟩ : Token).kind = .identifier := rfl
  have hnumber : Argument .extended [⟨.unknown, "-", 12⟩, ⟨.number, "7", 13⟩]
      (.number (.int (-7))) := .negative rfl rfl rfl (.int (by decide))
  have hreference : Argument .extended _ (.reference "a.b") :=
    .reference (ident "a" 24) (.cons (sym "." 25) (ident "b" 26) .nil) (fun _ => rfl)
  have hinner := Grammar.Component.call (ident "Text" 7)
    (.present (.full (sym "(" 11) (.trailing hnumber (sym "," 14)) (sym ")" 15)))
    (.absent : Block .extended nestedContext.locate [] none) (.inl rfl) .nil
  exact .call (ident "List" 0) .absent
    (.present (sym "\x7b" 5) (.cons rfl hinner .nil) (sym "\x7d" 17)) (.inr rfl)
    (.cons (sym "." 18) (ident "font" 19) (.full (sym "(" 23) (.last hreference) (sym ")" 27)) .nil)

theorem component_reads_iff_derives_nested :
    ReadsAt nestedContext 2 nestedTokens 0 nestedComponent 16 := by
  have hints : ∀ t ∈ nestedTokens, Convertible t := by
    intro t ht _ _
    exact Nat.le_trans (show t.text.toList.length ≤ 4 by revert t; decide) (by decide)
  have hread := component_complete nestedContext 2 nestedTokens_derive
    (fun t ht => hints t (mem_of_mem_extract ht)) (nestedTokens.drop 16)
    (follow_of_kind_ne (by decide) true)
  have hdepth (position : Nat) :
      component nestedContext 2 (nestedTokens.drop 0) ≠ .error (.tooDeep position) := by
    rw [show nestedTokens.drop 0 = nestedTokens.extract 0 16 ++ nestedTokens.drop 16 from rfl,
      hread.1 (by decide)]
    simp
  exact ((component_reads_iff_derives nestedContext 2 nestedTokens 0 rfl hdepth hints).1
    nestedComponent 16).mpr ⟨true, _, nestedTokens_derive, rfl, follow_of_kind_ne (by decide) true⟩

end Parser

end UiMarkup
