import UiMarkup.Markup.Diagnostic
import UiMarkup.Markup.Lexeme
import UiMarkup.Markup.Literal
import UiMarkup.Markup.Node

/-!
# Reading a component

Recursive descent over the tokens that remain. Each function either returns what it read with the
tokens after it, or stops: with a failure, which names its cause and the tokens at which reading
stood, or for good, when components are nested too deeply or an integer has too many digits.

    component → IDENTIFIER ("(" args? ")")? ("{" component* "}")? modifier*
    modifier  → "." IDENTIFIER "(" args? ")"
    args      → arg ("," arg)* ","?
    arg       → STRING | "-"? NUMBER | IDENTIFIER ("." IDENTIFIER)*

A component needs its argument list or its block. Dotted references exist in the extended profile
only. Main statements: `length_argument_lt` and `length_modifier_lt` say that reading an argument or
a modifier consumes a token, so the loops over them end.
-/

namespace UiMarkup.Parser

/-- A component that cannot be read: the cause, the offset to report and the tokens that remain. -/
structure Failure where
  cause : Cause
  position : Nat
  rest : List Token
  deriving Repr, DecidableEq

/-- Why reading stopped. -/
inductive Stop where
  /-- The component is dropped, and reading can go on after it. -/
  | failure (f : Failure)
  /-- Components are nested too deeply, seen at the given offset. -/
  | tooDeep (position : Nat)
  /-- An integer has too many digits. -/
  | oversizedInteger (digits : Nat)
  deriving Repr, DecidableEq

/-- The result of reading: a value and the tokens after it. -/
abbrev Step (α : Type) := Except Stop (α × List Token)

/-- What a reader needs to know beside the tokens. -/
structure Context where
  profile : Profile
  /-- The place of an offset into the source. -/
  locate : Nat → Place

/-- The token at which reading stands. -/
def current : List Token → Token
  | [] => .endOfText 0
  | t :: _ => t

/-- Stops at the current token. -/
def fail {α : Type} (cause : Cause) (ts : List Token) : Step α :=
  .error (.failure ⟨cause, (current ts).position, ts⟩)

/-- The tokens after the given symbol, if it comes next. -/
def eat? (symbol : String) : List Token → Option (List Token)
  | [] => none
  | t :: ts => if t.isSymbol symbol then some ts else none

/-! ## Arguments -/

/-- The names that continue a dotted reference. -/
def dottedNames : List Token → List String × List Token
  | dot :: name :: ts =>
    if dot.isSymbol "." && name.kind == .identifier then
      let (names, rest) := dottedNames ts
      (name.text :: names, rest)
    else ([], dot :: name :: ts)
  | ts => ([], ts)

/-- A number token as an argument. -/
def numeral (negative : Bool) (t : Token) (rest : List Token) : Step Expr :=
  match Literal.readNumber t.text with
  | .ok n => .ok (.number (if negative then n.neg else n), rest)
  | .error digits => .error (.oversizedInteger digits)

/-- The number after a minus sign, if there is one. -/
def negated? : List Token → Option (Token × List Token)
  | minus :: t :: rest =>
    if minus.kind == .unknown && minus.text == "-" && t.kind == .number then some (t, rest)
    else none
  | _ => none

/-- Reads an argument. -/
def argument (p : Profile) (ts : List Token) : Step Expr :=
  match negated? ts with
  | some (t, rest) => numeral true t rest
  | none =>
    match ts with
    | [] => fail .argumentMissing ts
    | t :: rest =>
      match t.kind with
      | .string =>
        match Literal.decodeString? t.text with
        | some s => .ok (.text s, rest)
        | none => .error (.failure ⟨.unterminatedString, t.position, rest⟩)
      | .number => numeral false t rest
      | .identifier =>
        let (names, rest) := if p = .extended then dottedNames rest else ([], rest)
        .ok (.reference (".".intercalate (t.text :: names)), rest)
      | .template => fail .templateArgument ts
      | .eof => fail .argumentMissing ts
      | _ => fail (.unexpectedArgument t.text) ts

theorem length_dottedNames_le (ts : List Token) :
    (dottedNames ts).2.length ≤ ts.length := by
  fun_induction dottedNames ts <;> grind

theorem numeral_eq_ok {negative : Bool} {t : Token} {rest rest' : List Token} {e : Expr}
    (h : numeral negative t rest = .ok (e, rest')) : rest' = rest := by
  unfold numeral at h
  split at h <;> simp_all

/-- The number after a minus sign stands two tokens further on. -/
theorem length_negated?_lt {ts rest : List Token} {t : Token} (h : negated? ts = some (t, rest)) :
    rest.length < ts.length := by
  fun_cases negated? ts with
  | case1 minus t' rest' hc =>
    simp only [negated?, hc, if_true, Option.some.injEq, Prod.mk.injEq] at h
    rw [← h.2]
    simp only [List.length_cons]
    omega
  | case2 minus t' rest' hc => simp [negated?, hc] at h
  | case3 => simp_all [negated?]

/-- A symbol that is eaten is one token. -/
theorem length_eat?_lt {symbol : String} {ts rest : List Token} (h : eat? symbol ts = some rest) :
    rest.length < ts.length := by
  cases ts with
  | nil => simp [eat?] at h
  | cons t ts =>
    simp only [eat?, Option.ite_none_right_eq_some, Option.some.injEq] at h
    simp [h.2]

/-- An argument takes at least one token. -/
theorem length_argument_lt {p : Profile} {ts rest : List Token} {e : Expr}
    (h : argument p ts = .ok (e, rest)) : rest.length < ts.length := by
  unfold argument at h
  split at h
  · next hneg => rw [numeral_eq_ok h]; exact length_negated?_lt hneg
  · cases ts with
    | nil => simp [fail] at h
    | cons t ts =>
      have hd := length_dottedNames_le ts
      dsimp only at h
      split at h
      · split at h <;> simp_all
      · rw [numeral_eq_ok h]; simp
      · simp only [Except.ok.injEq, Prod.mk.injEq] at h
        split at h <;> grind
      all_goals simp [fail] at h

/-- Reads the arguments after an opening parenthesis, at least one, and the closing one. A comma may
stand before the closing parenthesis. -/
def arguments (p : Profile) (ts : List Token) : Step (List Expr) :=
  match _h : argument p ts with
  | .error stop => .error stop
  | .ok (e, rest) =>
    match _hc : eat? "," rest with
    | some rest' =>
      match eat? ")" rest' with
      | some rest'' => .ok ([e], rest'')
      | none =>
        match arguments p rest' with
        | .error stop => .error stop
        | .ok (es, rest'') => .ok (e :: es, rest'')
    | none =>
      match eat? ")" rest with
      | some rest' => .ok ([e], rest')
      | none =>
        if (current rest).kind == .eof then fail .unclosedArguments rest
        else fail (.expectedSeparator (current rest).text) rest
termination_by ts.length
decreasing_by exact Nat.lt_trans (length_eat?_lt _hc) (length_argument_lt _h)

/-- Arguments take at least one token. -/
theorem length_arguments_lt {p : Profile} {ts rest : List Token} {es : List Expr}
    (h : arguments p ts = .ok (es, rest)) : rest.length < ts.length := by
  fun_induction arguments p ts generalizing es rest with
  | case1 | case3 | case6 | case7 => simp [fail] at h
  | case2 ts e rest₁ ha rest₂ hc rest₃ hp =>
    simp only [Except.ok.injEq, Prod.mk.injEq] at h
    have := length_argument_lt ha
    have := length_eat?_lt hc
    have := length_eat?_lt hp
    rw [← h.2]; omega
  | case4 ts e rest₁ ha rest₂ hc hp es' rest₃ hr ih =>
    simp only [Except.ok.injEq, Prod.mk.injEq] at h
    have := length_argument_lt ha
    have := length_eat?_lt hc
    have := ih hr
    rw [← h.2]; omega
  | case5 ts e rest₁ ha hc rest₂ hp =>
    simp only [Except.ok.injEq, Prod.mk.injEq] at h
    have := length_argument_lt ha
    have := length_eat?_lt hp
    rw [← h.2]; omega

/-- Reads the argument list after an opening parenthesis, which may be empty. -/
def argumentList (p : Profile) (ts : List Token) : Step (List Expr) :=
  match eat? ")" ts with
  | some rest => .ok ([], rest)
  | none => arguments p ts

/-- An argument list takes at least its closing parenthesis. -/
theorem length_argumentList_lt {p : Profile} {ts rest : List Token} {es : List Expr}
    (h : argumentList p ts = .ok (es, rest)) : rest.length < ts.length := by
  unfold argumentList at h
  split at h
  · next hp =>
    simp only [Except.ok.injEq, Prod.mk.injEq] at h
    exact h.2 ▸ length_eat?_lt hp
  · exact length_arguments_lt h

/-! ## Modifiers -/

/-- Reads the identifier that comes next. -/
def identifier (missing : Cause) : List Token → Step Token
  | [] => fail missing []
  | t :: ts => if t.kind == .identifier then .ok (t, ts) else fail missing (t :: ts)

theorem length_identifier_lt {missing : Cause} {ts rest : List Token} {t : Token}
    (h : identifier missing ts = .ok (t, rest)) : rest.length < ts.length := by
  cases ts with
  | nil => simp [identifier, fail] at h
  | cons t ts => simp only [identifier] at h; split at h <;> simp_all [fail]

/-- Reads a modifier after its dot. -/
def modifier (p : Profile) (ts : List Token) : Step Modifier :=
  match identifier .expectedModifierName ts with
  | .error stop => .error stop
  | .ok (name, rest) =>
    match eat? "(" rest with
    | none => fail (.expectedModifierArguments name.text) rest
    | some rest =>
      match argumentList p rest with
      | .error stop => .error stop
      | .ok (args, rest) => .ok (⟨name.text, args⟩, rest)

/-- A modifier takes at least one token. -/
theorem length_modifier_lt {p : Profile} {ts rest : List Token} {m : Modifier}
    (h : modifier p ts = .ok (m, rest)) : rest.length < ts.length := by
  unfold modifier at h
  split at h
  · simp at h
  · next hi =>
    split at h
    · simp [fail] at h
    · next hp =>
      split at h
      · simp at h
      · next ha =>
        simp only [Except.ok.injEq, Prod.mk.injEq] at h
        have := length_identifier_lt hi
        have := length_eat?_lt hp
        have := length_argumentList_lt ha
        rw [← h.2]; omega

/-- Reads the modifier chain. -/
def modifiers (p : Profile) (ts : List Token) : Step (List Modifier) :=
  match _hd : eat? "." ts with
  | none => .ok ([], ts)
  | some rest =>
    match _hm : modifier p rest with
    | .error stop => .error stop
    | .ok (m, rest) =>
      match modifiers p rest with
      | .error stop => .error stop
      | .ok (ms, rest) => .ok (m :: ms, rest)
termination_by ts.length
decreasing_by exact Nat.lt_trans (length_modifier_lt _hm) (length_eat?_lt _hd)

/-! ## Components -/

/-- The tokens start a component inside a block: a capitalised name that opens a call. -/
def startsInBlock : List Token → Bool
  | name :: next :: _ => name.isCapitalised && next.opensCall
  | _ => false

/-- Reads the entries of a block up to its closing brace. An entry has to take a token. -/
def block (entry : List Token → Step Component) (owner : String) (ts : List Token) :
    Step (List Component) :=
  match eat? "\x7d" ts with
  | some rest => .ok ([], rest)
  | none =>
    if (current ts).kind == .eof then fail (.unclosedBlock owner) ts
    else if startsInBlock ts then
      match entry ts with
      | .error stop => .error stop
      | .ok (c, rest) =>
        if rest.length < ts.length then
          match block entry owner rest with
          | .error stop => .error stop
          | .ok (cs, rest) => .ok (c :: cs, rest)
        else fail (.expectedComponent (current ts).text) ts
    else fail (.expectedComponent (current ts).text) ts
termination_by ts.length

/-- Reads the argument list, if one opens. -/
def argumentPart (p : Profile) (ts : List Token) : Step (Option (List Expr)) :=
  match eat? "(" ts with
  | none => .ok (none, ts)
  | some rest =>
    match argumentList p rest with
    | .error stop => .error stop
    | .ok (args, rest) => .ok (some args, rest)

/-- Reads the block, if one opens. -/
def blockPart (entry : List Token → Step Component) (owner : String) (ts : List Token) :
    Step (Option (List Component)) :=
  match eat? "\x7b" ts with
  | none => .ok (none, ts)
  | some rest =>
    match block entry owner rest with
    | .error stop => .error stop
    | .ok (cs, rest) => .ok (some cs, rest)

/-- Reads a component that may nest `depth` levels deep. -/
def component (ctx : Context) : (depth : Nat) → List Token → Step Component
  | 0, ts => .error (.tooDeep (current ts).position)
  | depth + 1, ts =>
    match identifier .expectedComponentName ts with
    | .error stop => .error stop
    | .ok (name, rest) =>
      match argumentPart ctx.profile rest with
      | .error stop => .error stop
      | .ok (args, rest) =>
        match blockPart (component ctx depth) name.text rest with
        | .error stop => .error stop
        | .ok (inner, rest) =>
          if args.isNone && inner.isNone then fail (.expectedCall name.text) rest
          else
            match modifiers ctx.profile rest with
            | .error stop => .error stop
            | .ok (mods, rest) =>
              .ok (⟨name.text, args.getD [], inner.getD [], mods, ctx.locate name.position⟩, rest)

end UiMarkup.Parser
