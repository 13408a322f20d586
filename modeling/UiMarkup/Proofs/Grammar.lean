import UiMarkup.Markup.Literal
import UiMarkup.Markup.Node
import UiMarkup.Markup.Profile
import UiMarkup.Markup.Token

/-!
# The grammar of markup

What a row of tokens stands for, as relations between tokens and values. They say nothing about how
the tokens are read: there is no lookahead, no order of attempts and no limit on depth or digits.

    component → IDENTIFIER ("(" args? ")")? ("{" component* "}")? modifier*
    modifier  → "." IDENTIFIER "(" args? ")"
    args      → arg ("," arg)* ","?
    arg       → STRING | "-"? NUMBER | IDENTIFIER ("." IDENTIFIER)*

* `Component p locate ts c isSealed`: the tokens `ts` derive the component `c`; `isSealed` tells
  whether the derivation uses a block or a modifier.
* `Follow isSealed t`: the token `t` after a derivation cannot extend it.
-/

namespace UiMarkup

namespace Component

mutual
/-- How many levels of components a component spans, itself included. -/
def height : Component → Nat
  | ⟨_, _, components, _, _⟩ => heightAll components + 1

/-- The largest height among components. -/
def heightAll : List Component → Nat
  | [] => 0
  | c :: cs => max c.height (heightAll cs)
end

theorem height_pos (c : Component) : 0 < c.height := by
  cases c; simp [height]

end Component

namespace Grammar

/-! ## Literals -/

/-- Characters between two quotes and what they stand for: a backslash makes an escape of the next
character, and any other character stands for itself. -/
inductive Units : List Char → List Char → Prop where
  | nil : Units [] []
  | plain {c : Char} {s v : List Char} (hc : c ≠ '\\') (h : Units s v) : Units (c :: s) (c :: v)
  | escape {c : Char} {s v : List Char} (h : Units s v) :
      Units ('\\' :: c :: s) (Literal.unescape c :: v)

/-- The text of a string token that is closed by its quote, and its value. -/
def ClosedString (text value : String) : Prop :=
  ∃ quote body, text.toList = quote :: (body ++ [quote]) ∧ Units body value.toList

/-- The text of a number token and its value: without a point an integer, with one a real number. -/
inductive Denotes (text : String) : Number → Prop where
  | int (h : '.' ∉ text.toList) : Denotes text (.int (Text.ofDigits text.toList))
  | real {whole fraction : List Char} (hw : '.' ∉ whole)
      (h : text.toList = whole ++ '.' :: fraction) :
      Denotes text
        (.real (Decimal.ofScaled (Text.ofDigits (whole ++ fraction)) (-fraction.length)))

/-- The token is not an integer with more digits than can be converted. -/
def Convertible (t : Token) : Prop :=
  t.kind = .number → '.' ∉ t.text.toList → t.text.toList.length ≤ Literal.maxIntegerDigits

/-! ## Arguments -/

/-- `("." IDENTIFIER)*`, with the names. -/
inductive Dotted : List Token → List String → Prop where
  | nil : Dotted [] []
  | cons {dot name : Token} {ts : List Token} {names : List String} (hd : dot.isSymbol ".")
      (hn : name.kind = .identifier) (h : Dotted ts names) :
      Dotted (dot :: name :: ts) (name.text :: names)

/-- An argument. -/
inductive Argument (p : Profile) : List Token → Expr → Prop where
  | text {t : Token} {value : String} (hk : t.kind = .string) (h : ClosedString t.text value) :
      Argument p [t] (.text value)
  | number {t : Token} {n : Number} (hk : t.kind = .number) (h : Denotes t.text n) :
      Argument p [t] (.number n)
  | negative {minus t : Token} {n : Number} (hm : minus.kind = .unknown) (hs : minus.text = "-")
      (hk : t.kind = .number) (h : Denotes t.text n) : Argument p [minus, t] (.number n.neg)
  | reference {t : Token} {ts : List Token} {names : List String} (hk : t.kind = .identifier)
      (h : Dotted ts names) (hp : ts ≠ [] → p = .extended) :
      Argument p (t :: ts) (.reference (".".intercalate (t.text :: names)))

/-- `arg ("," arg)* ","?`, with the values of the arguments. -/
inductive Arguments (p : Profile) : List Token → List Expr → Prop where
  | last {ts : List Token} {e : Expr} (h : Argument p ts e) : Arguments p ts [e]
  | trailing {ts : List Token} {e : Expr} {comma : Token} (h : Argument p ts e)
      (hc : comma.isSymbol ",") : Arguments p (ts ++ [comma]) [e]
  | more {ts ts' : List Token} {e : Expr} {es : List Expr} {comma : Token} (h : Argument p ts e)
      (hc : comma.isSymbol ",") (hs : Arguments p ts' es) :
      Arguments p (ts ++ comma :: ts') (e :: es)

/-- `"(" args? ")"`. -/
inductive ArgumentList (p : Profile) : List Token → List Expr → Prop where
  | empty {l r : Token} (hl : l.isSymbol "(") (hr : r.isSymbol ")") : ArgumentList p [l, r] []
  | full {l r : Token} {ts : List Token} {es : List Expr} (hl : l.isSymbol "(")
      (h : Arguments p ts es) (hr : r.isSymbol ")") : ArgumentList p (l :: (ts ++ [r])) es

/-! ## Modifiers and components -/

/-- `modifier*`. -/
inductive Modifiers (p : Profile) : List Token → List Modifier → Prop where
  | nil : Modifiers p [] []
  | cons {dot name : Token} {ts ts' : List Token} {args : List Expr} {ms : List Modifier}
      (hd : dot.isSymbol ".") (hn : name.kind = .identifier) (ha : ArgumentList p ts args)
      (h : Modifiers p ts' ms) :
      Modifiers p (dot :: name :: (ts ++ ts')) (⟨name.text, args⟩ :: ms)

/-- `("(" args? ")")?`, where `none` stands for the absent list. -/
inductive ArgumentPart (p : Profile) : List Token → Option (List Expr) → Prop where
  | absent : ArgumentPart p [] none
  | present {ts : List Token} {es : List Expr} (h : ArgumentList p ts es) :
      ArgumentPart p ts (some es)

mutual
/-- A component, whose place is that of its name. It has its argument list or its block, or both. -/
inductive Component (p : Profile) (locate : Nat → Place) :
    List Token → UiMarkup.Component → Bool → Prop where
  | call {name : Token} {ts ts' ts'' : List Token} {args : Option (List Expr)}
      {inner : Option (List UiMarkup.Component)} {ms : List Modifier}
      (hn : name.kind = .identifier) (ha : ArgumentPart p ts args) (hb : Block p locate ts' inner)
      (hsome : args.isSome ∨ inner.isSome) (hm : Modifiers p ts'' ms) :
      Component p locate (name :: (ts ++ ts' ++ ts''))
        ⟨name.text, args.getD [], inner.getD [], ms, locate name.position⟩
        (inner.isSome || !ms.isEmpty)

/-- `("{" component* "}")?`, where `none` stands for the absent block. -/
inductive Block (p : Profile) (locate : Nat → Place) :
    List Token → Option (List UiMarkup.Component) → Prop where
  | absent : Block p locate [] none
  | present {l r : Token} {ts : List Token} {cs : List UiMarkup.Component} (hl : l.isSymbol "\x7b")
      (h : Entries p locate ts cs) (hr : r.isSymbol "\x7d") :
      Block p locate (l :: (ts ++ [r])) (some cs)

/-- `component*` as in a block: the name of each component is capitalised. -/
inductive Entries (p : Profile) (locate : Nat → Place) :
    List Token → List UiMarkup.Component → Prop where
  | nil : Entries p locate [] []
  | cons {name : Token} {ts ts' : List Token} {c : UiMarkup.Component}
      {cs : List UiMarkup.Component} {isSealed : Bool} (hn : name.isCapitalised)
      (h : Component p locate (name :: ts) c isSealed) (hs : Entries p locate ts' cs) :
      Entries p locate (name :: (ts ++ ts')) (c :: cs)
end

/-- The token after a derivation starts no further modifier and, as long as the derivation has
neither block nor modifier, no block. -/
def Follow (isSealed : Bool) (t : Token) : Prop :=
  ¬ t.isSymbol "." ∧ (isSealed = false → ¬ t.isSymbol "\x7b")

/-! ## Derivations stay before the end token -/

theorem dotted_tokens {ts : List Token} {names : List String} (h : Dotted ts names) :
    ∀ t ∈ ts, t.kind ≠ .eof := by
  induction h with
  | nil => simp
  | cons hd hn _ ih => simp_all [Token.isSymbol]

theorem argument_tokens {p : Profile} {ts : List Token} {e : Expr} (h : Argument p ts e) :
    ∀ t ∈ ts, t.kind ≠ .eof := by
  cases h with
  | text hk _ | number hk _ => simp [hk]
  | negative hm _ hk _ => simp [hm, hk]
  | reference hk hd _ => simpa [hk] using dotted_tokens hd

theorem arguments_tokens {p : Profile} {ts : List Token} {es : List Expr} (h : Arguments p ts es) :
    ∀ t ∈ ts, t.kind ≠ .eof := by
  induction h with
  | last h => exact argument_tokens h
  | trailing h hc =>
    have := argument_tokens h
    grind [Token.isSymbol]
  | more h hc _ ih =>
    have := argument_tokens h
    grind [Token.isSymbol]

theorem argumentList_tokens {p : Profile} {ts : List Token} {es : List Expr}
    (h : ArgumentList p ts es) : ∀ t ∈ ts, t.kind ≠ .eof := by
  cases h with
  | empty hl hr => grind [Token.isSymbol]
  | full hl h hr =>
    have := arguments_tokens h
    grind [Token.isSymbol]

theorem modifiers_tokens {p : Profile} {ts : List Token} {es : List Modifier}
    (h : Modifiers p ts es) : ∀ t ∈ ts, t.kind ≠ .eof := by
  induction h with
  | nil => simp
  | cons hd hn ha _ ih =>
    have := argumentList_tokens ha
    grind [Token.isSymbol]

mutual
theorem component_tokens {p : Profile} {locate : Nat → Place} {ts : List Token}
    {c : UiMarkup.Component} {isSealed : Bool} :
    Component p locate ts c isSealed → ∀ t ∈ ts, t.kind ≠ .eof
  | .call hn ha hb hsome hm => by
    have h1 := block_tokens hb
    have h2 := modifiers_tokens hm
    cases ha with
    | absent => grind
    | present ha =>
      have h3 := argumentList_tokens ha
      grind

theorem block_tokens {p : Profile} {locate : Nat → Place} {ts : List Token}
    {cs : Option (List UiMarkup.Component)} :
    Block p locate ts cs → ∀ t ∈ ts, t.kind ≠ .eof
  | .absent => by simp
  | .present hl h hr => by
    have h1 := entries_tokens h
    grind [Token.isSymbol]

theorem entries_tokens {p : Profile} {locate : Nat → Place} {ts : List Token}
    {cs : List UiMarkup.Component} :
    Entries p locate ts cs → ∀ t ∈ ts, t.kind ≠ .eof
  | .nil => by simp
  | .cons hn h hs => by
    have h1 := component_tokens h
    have h2 := entries_tokens hs
    grind [Token.isSymbol]
end

end Grammar

end UiMarkup
