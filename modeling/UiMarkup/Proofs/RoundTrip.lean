import UiMarkup.Proofs.Lexing
import UiMarkup.Proofs.NameTokens

/-!
# Printing then parsing

A printed forest is read back without diagnostics, and what is read differs from the forest in its
places only.

* `legal_printsAll`: the pieces of a forest can be told apart.
* `derives_prints`: the pieces of a component derive it.
* `survey_printsAll`: the tokens of a printed forest are surveyed without a diagnostic.
* `parse_rendering`: the main statement.
-/

namespace UiMarkup

open Piece

/-! ## Digits -/

theorem digitValue?_of_isDigit {c : Char} (h : c.isDigit) :
    Text.digitValue? c = some (c.toNat - 48) := by
  have hrange : 48 ≤ c.toNat ∧ c.toNat ≤ 57 := by
    simpa [Char.isDigit, UInt32.le_iff_toNat_le, ← Char.toNat_val] using h
  rw [Text.digitValue?, Text.zeros, List.find?_cons_of_pos]
  · rfl
  · simp only [Bool.and_eq_true, decide_eq_true_eq]
    omega

theorem isNumeral_toDigits (n : Nat) : Text.isNumeral (Nat.toDigits 10 n) := by
  simp only [Text.isNumeral, Bool.and_eq_true, Bool.not_eq_true', List.isEmpty_eq_false_iff,
    List.all_eq_true]
  refine ⟨Nat.toDigits_ne_nil, fun c hc => ?_⟩
  have hdigit := Nat.isDigit_of_mem_toDigits (by decide) (by decide) hc
  rw [Text.isDigit, digitValue?_of_isDigit hdigit]
  rfl

/-- The digits of a number spell it. -/
theorem ofDigits_toDigits (n : Nat) : Text.ofDigits (Nat.toDigits 10 n) = n := by
  have hfold (s : List Char) (hs : ∀ c ∈ s, c.isDigit) (m : Nat) :
      s.foldl (fun n c => 10 * n + (Text.digitValue? c).getD 0) m = Nat.ofDigitChars 10 s m := by
    induction s generalizing m with
    | nil => rfl
    | cons c s ih =>
      obtain ⟨hc, hs⟩ := List.forall_mem_cons.mp hs
      rw [List.foldl_cons, digitValue?_of_isDigit hc, ih hs]
      rfl
  rw [Text.ofDigits, hfold _ fun c hc => Nat.isDigit_of_mem_toDigits (by decide) (by decide) hc]
  exact Nat.ofDigitChars_ten_toDigits

/-! ## The pieces of a forest can be told apart -/

/-- Each piece is read as one token, and no piece is continued by the next. -/
def Legal (p : Profile) (ps : List Piece) : Prop :=
  (∀ piece ∈ ps, piece.Valid p) ∧ ps.IsChain Separable

/-- The pieces start with a symbol that does not continue an argument. -/
def Delimited (ps : List Piece) : Prop :=
  ∀ piece ∈ ps.head?, piece.kind = .symbol ∧ piece.text ≠ ['.']

section
variable {p : Profile} {rest : List Piece}

theorem legal_cons {piece : Piece} (h : piece.Valid p)
    (hsep : ∀ q ∈ rest.head?, Separable piece q) (hrest : Legal p rest) :
    Legal p (piece :: rest) :=
  ⟨List.forall_mem_cons.mpr ⟨h, hrest.1⟩, List.isChain_cons.mpr ⟨hsep, hrest.2⟩⟩

theorem legal_symbol {c : Char} (hc : c ∈ Lexeme.symbols) (hrest : Legal p rest) :
    Legal p (symbol c :: rest) :=
  legal_cons (.symbol hc) (fun _ _ => ⟨nofun, nofun⟩) hrest

theorem legal_identifier {name : List Char} (h : p.isIdentifier name)
    (hsymbol : ∀ q ∈ rest.head?, q.kind = .symbol) (hrest : Legal p rest) :
    Legal p (identifier name :: rest) :=
  legal_cons (.identifier h) (fun q hq => ⟨fun _ => hsymbol q hq, nofun⟩) hrest

theorem legal_number {digits : List Char} (h : (number digits).Valid p) (hd : Delimited rest)
    (hrest : Legal p rest) : Legal p (number digits :: rest) :=
  legal_cons h (fun q hq => ⟨nofun, fun _ => hd q hq⟩) hrest

theorem legal_minus (hrest : Legal p rest) : Legal p (minus :: rest) :=
  legal_cons .minus (fun _ _ => ⟨nofun, nofun⟩) hrest

theorem legal_dotted {parts : List (List Char)} (h : ∀ part ∈ parts, p.isIdentifier part)
    (hsymbol : ∀ q ∈ rest.head?, q.kind = .symbol) (hrest : Legal p rest) :
    Legal p ((parts.flatMap fun part => [symbol '.', identifier part]) ++ rest) ∧
      ∀ q ∈ ((parts.flatMap fun part => [symbol '.', identifier part]) ++ rest).head?,
        q.kind = .symbol := by
  induction parts with
  | nil => exact ⟨hrest, hsymbol⟩
  | cons part parts ih =>
    obtain ⟨hpart, hparts⟩ := List.forall_mem_cons.mp h
    obtain ⟨hlegal, hhead⟩ := ih hparts
    refine ⟨legal_symbol (by decide) (legal_identifier hpart hhead hlegal), ?_⟩
    rintro q ⟨⟩
    rfl

theorem legal_printsExpr {e : Expr} {ps : List Piece} (h : PrintsExpr e ps) (he : e.Formed p)
    (hd : Delimited rest) (hrest : Legal p rest) : Legal p (ps ++ rest) := by
  cases h with
  | text s hq => exact legal_cons (.quoted hq s) (fun _ _ => ⟨nofun, nofun⟩) hrest
  | natural n => exact legal_number (.integer (isNumeral_toDigits n) he) hd hrest
  | negative n =>
    simp only [Expr.Formed, Int.natAbs_neg, Int.natAbs_natCast] at he
    exact legal_minus (legal_number (.integer (isNumeral_toDigits n) he) hd hrest)
  | real hw hf => exact legal_number (.decimal hw hf) hd hrest
  | negativeReal hw hf => exact legal_minus (legal_number (.decimal hw hf) hd hrest)
  | reference hparts =>
    obtain ⟨hids, -⟩ := he
    rw [hparts] at hids
    obtain ⟨hpart, hids⟩ := List.forall_mem_cons.mp hids
    obtain ⟨hlegal, hhead⟩ := legal_dotted hids (fun q hq => (hd q hq).1) hrest
    exact legal_identifier hpart hhead hlegal

theorem legal_printsArguments {es : List Expr} {ps : List Piece} (h : PrintsArguments es ps)
    (hes : ∀ e ∈ es, e.Formed p) (hd : Delimited rest) (hrest : Legal p rest) :
    Legal p (ps ++ rest) := by
  induction h with
  | one h => exact legal_printsExpr h (hes _ List.mem_cons_self) hd hrest
  | more h _ ih =>
    obtain ⟨he, hes⟩ := List.forall_mem_cons.mp hes
    rw [List.append_assoc]
    refine legal_printsExpr h he ?_ (legal_symbol (by decide) (ih hes))
    rintro q ⟨⟩
    exact ⟨rfl, by decide⟩

theorem legal_printsList {es : List Expr} {ps : List Piece} (h : PrintsList es ps)
    (hes : ∀ e ∈ es, e.Formed p) (hrest : Legal p rest) : Legal p (ps ++ rest) := by
  have hclose : Legal p (symbol ')' :: rest) := legal_symbol (by decide) hrest
  cases h with
  | empty => exact legal_symbol (by decide) hclose
  | full h =>
    rw [List.cons_append, List.append_assoc]
    refine legal_symbol (by decide) (legal_printsArguments h hes ?_ hclose)
    rintro q ⟨⟩
    exact ⟨rfl, by decide⟩

theorem head_printsList {es : List Expr} {ps : List Piece} (h : PrintsList es ps) :
    ∃ qs, ps = symbol '(' :: qs := by
  cases h with
  | empty | full => exact ⟨_, rfl⟩

theorem legal_printsModifiers {ms : List Modifier} {ps : List Piece} (h : PrintsModifiers ms ps)
    (hms : ∀ m ∈ ms, p.isIdentifier m.name.toList ∧ ∀ e ∈ m.arguments, e.Formed p)
    (hrest : Legal p rest) : Legal p (ps ++ rest) := by
  induction h with
  | nil => exact hrest
  | cons h _ ih =>
    obtain ⟨⟨hname, hargs⟩, hms⟩ := List.forall_mem_cons.mp hms
    have hlist := legal_printsList h hargs (ih hms)
    rw [← List.append_assoc] at hlist
    refine legal_symbol (by decide) (legal_identifier hname ?_ hlist)
    obtain ⟨_, rfl⟩ := head_printsList h
    rintro q ⟨⟩
    rfl

mutual
theorem legal_prints {c : Component} {ps rest : List Piece} :
    Prints c ps → (∀ d ∈ c.preorder, d.Formed p) → Legal p rest → Legal p (ps ++ rest)
  | .call ha hb hm, hformed, hrest => by
    rw [Component.preorder, List.forall_mem_cons] at hformed
    have hlegal := legal_printsList ha hformed.1.arguments
      (legal_printsBlock hb hformed.2 (legal_printsModifiers hm hformed.1.modifiers hrest))
    rw [List.cons_append, List.append_assoc, List.append_assoc]
    refine legal_identifier hformed.1.name ?_ hlegal
    obtain ⟨_, rfl⟩ := head_printsList ha
    rintro q ⟨⟩
    rfl
  | .bare hb hm, hformed, hrest => by
    rw [Component.preorder, List.forall_mem_cons] at hformed
    have hlegal := legal_printsBlock (.present hb) hformed.2
      (legal_printsModifiers hm hformed.1.modifiers hrest)
    rw [List.cons_append, List.append_assoc]
    refine legal_identifier hformed.1.name ?_ hlegal
    rintro q ⟨⟩
    rfl

theorem legal_printsBlock {cs : List Component} {ps rest : List Piece} :
    PrintsBlock cs ps → (∀ d ∈ cs.flatMap Component.preorder, d.Formed p) → Legal p rest →
      Legal p (ps ++ rest)
  | .absent, _, hrest => hrest
  | .present h, hformed, hrest => by
    rw [List.cons_append, List.append_assoc]
    exact legal_symbol (by decide) (legal_printsAll h hformed (legal_symbol (by decide) hrest))

theorem legal_printsAll {cs : List Component} {ps rest : List Piece} :
    PrintsAll cs ps → (∀ d ∈ cs.flatMap Component.preorder, d.Formed p) → Legal p rest →
      Legal p (ps ++ rest)
  | .nil, _, hrest => hrest
  | .cons h hs, hformed, hrest => by
    rw [List.flatMap_cons, List.forall_mem_append] at hformed
    rw [List.append_assoc]
    exact legal_prints h hformed.1 (legal_printsAll hs hformed.2 hrest)
end

end

/-! ## The pieces of a component derive it -/

theorem isSymbol_of_piece {t : Token} {c : Char} {s : String} (h : t.piece = symbol c)
    (hs : s.toList = [c]) : t.isSymbol s := by
  obtain ⟨hkind, htext⟩ := Piece.mk.inj h
  rw [Token.isSymbol_iff]
  exact ⟨hkind, String.toList_inj.mp (htext.trans hs.symm)⟩

theorem text_of_piece {t : Token} {name : String} (h : t.piece = identifier name.toList) :
    t.kind = .identifier ∧ t.text = name := by
  obtain ⟨hkind, htext⟩ := Piece.mk.inj h
  exact ⟨hkind, String.toList_inj.mp htext⟩

theorem units_escaped {quote : Char} (hq : quote = '"' ∨ quote = '\'') (v : List Char) :
    Grammar.Units (v.flatMap (escaped quote)) v := by
  induction v with
  | nil => exact .nil
  | cons c v ih =>
    have hquote : Literal.unescape quote = quote := by rcases hq with rfl | rfl <;> rfl
    rw [List.flatMap_cons, escaped]
    split
    · next hc =>
      have hunescape : Literal.unescape c = c := by
        rcases hc with rfl | rfl
        · rfl
        · exact hquote
      have := Grammar.Units.escape (c := c) ih
      rwa [hunescape] at this
    · next hc =>
      split
      · next hline =>
        subst hline
        exact .escape (c := 'n') ih
      · exact .plain (fun h => hc (.inl h)) ih

theorem point_not_mem_of_isNumeral {digits : List Char} (h : Text.isNumeral digits) :
    '.' ∉ digits := by
  intro hmem
  simp only [Text.isNumeral, Bool.and_eq_true, List.all_eq_true] at h
  exact absurd (h.2 _ hmem) (by decide)

theorem derives_dotted {parts : List (List Char)} {ts : List Token}
    (h : ts.map Token.piece = parts.flatMap fun part => [symbol '.', identifier part]) :
    Grammar.Dotted ts (parts.map String.ofList) := by
  induction parts generalizing ts with
  | nil =>
    obtain rfl := List.map_eq_nil_iff.mp h
    exact .nil
  | cons part parts ih =>
    simp only [List.flatMap_cons, List.cons_append, List.nil_append] at h
    obtain ⟨dot, ts, rfl, hdot, h⟩ := List.map_eq_cons_iff.mp h
    obtain ⟨name, ts, rfl, hname, h⟩ := List.map_eq_cons_iff.mp h
    rw [← String.toList_ofList (l := part)] at hname
    obtain ⟨hkind, htext⟩ := text_of_piece hname
    rw [List.map_cons, ← htext]
    exact .cons (isSymbol_of_piece hdot rfl) hkind (ih h)

theorem denotes_integer {t : Token} {digits : List Char} (h : t.piece = number digits)
    (hd : Text.isNumeral digits) :
    t.kind = .number ∧ Grammar.Denotes t.text (.int (Text.ofDigits digits)) := by
  obtain ⟨hkind, htext⟩ := Piece.mk.inj h
  subst htext
  exact ⟨hkind, .int (point_not_mem_of_isNumeral hd)⟩

theorem denotes_decimal {t : Token} {whole fraction : List Char}
    (h : t.piece = number (whole ++ '.' :: fraction)) (hw : Text.isNumeral whole) :
    t.kind = .number ∧ Grammar.Denotes t.text (.real (Decimal.ofLiteral whole fraction)) := by
  obtain ⟨hkind, htext⟩ := Piece.mk.inj h
  exact ⟨hkind, .real (point_not_mem_of_isNumeral hw) htext⟩

theorem minus_of_piece {t : Token} (h : t.piece = minus) : t.kind = .unknown ∧ t.text = "-" := by
  obtain ⟨hkind, htext⟩ := Piece.mk.inj h
  exact ⟨hkind, String.toList_inj.mp htext⟩

/-- A token whose piece is valid can be converted. -/
theorem convertible_of_valid {p : Profile} {t : Token} (h : t.piece.Valid p) :
    Grammar.Convertible t := by
  intro hkind hpoint
  generalize heq : t.piece = piece at h
  have hpiece : piece.kind = .number := (congrArg Piece.kind heq).symm.trans hkind
  have htext : t.text.toList = piece.text := congrArg Piece.text heq
  rw [htext] at hpoint ⊢
  cases h with
  | integer _ hle => exact hle
  | decimal => simp [number] at hpoint
  | _ => cases hpiece

theorem derives_printsExpr {p : Profile} {e : Expr} {ps : List Piece} (h : PrintsExpr e ps)
    (he : e.Formed p) {ts : List Token} (hts : ts.map Token.piece = ps) :
    Grammar.Argument p ts e := by
  cases h with
  | text s hq =>
    obtain ⟨t, rfl, ht⟩ := List.map_eq_singleton_iff.mp hts
    obtain ⟨hkind, htext⟩ := Piece.mk.inj ht
    exact .text hkind ⟨_, _, htext, units_escaped hq s.toList⟩
  | natural n =>
    obtain ⟨t, rfl, ht⟩ := List.map_eq_singleton_iff.mp hts
    obtain ⟨hkind, hdenotes⟩ := denotes_integer ht (isNumeral_toDigits n)
    rw [ofDigits_toDigits] at hdenotes
    exact .number hkind hdenotes
  | negative n =>
    obtain ⟨m, ts, rfl, hm, hts⟩ := List.map_eq_cons_iff.mp hts
    obtain ⟨t, rfl, ht⟩ := List.map_eq_singleton_iff.mp hts
    obtain ⟨hkind, hdenotes⟩ := denotes_integer ht (isNumeral_toDigits n)
    rw [ofDigits_toDigits] at hdenotes
    exact .negative (minus_of_piece hm).1 (minus_of_piece hm).2 hkind hdenotes
  | real hw hf =>
    obtain ⟨t, rfl, ht⟩ := List.map_eq_singleton_iff.mp hts
    obtain ⟨hkind, hdenotes⟩ := denotes_decimal ht hw
    exact .number hkind hdenotes
  | negativeReal hw hf =>
    obtain ⟨m, ts, rfl, hm, hts⟩ := List.map_eq_cons_iff.mp hts
    obtain ⟨t, rfl, ht⟩ := List.map_eq_singleton_iff.mp hts
    obtain ⟨hkind, hdenotes⟩ := denotes_decimal ht hw
    exact .negative (minus_of_piece hm).1 (minus_of_piece hm).2 hkind hdenotes
  | @reference name part parts hparts =>
    obtain ⟨t, ts, rfl, ht, hts⟩ := List.map_eq_cons_iff.mp hts
    rw [← String.toList_ofList (l := part)] at ht
    obtain ⟨hkind, htext⟩ := text_of_piece ht
    have hjoin : ['.'].intercalate (part :: parts) = name.toList := by
      rw [← hparts]
      exact List.intercalate_splitOn '.'
    have hname : name = ".".intercalate (t.text :: parts.map String.ofList) := by
      rw [← String.toList_inj, String.toList_intercalate, htext, ← hjoin]
      simp [Function.comp_def]
    have hextended : ts ≠ [] → p = .extended := by
      intro hne
      cases p with
      | extended => rfl
      | plain =>
        rw [List.splitOn_eq_singleton (he.2 rfl)] at hparts
        obtain ⟨-, rfl⟩ := List.cons.inj hparts
        exact absurd (List.map_eq_nil_iff.mp hts) hne
    rw [hname]
    exact .reference hkind (derives_dotted hts) hextended

theorem derives_printsArguments {p : Profile} {es : List Expr} {ps : List Piece}
    (h : PrintsArguments es ps) (hes : ∀ e ∈ es, e.Formed p) {ts : List Token}
    (hts : ts.map Token.piece = ps) : Grammar.Arguments p ts es := by
  induction h generalizing ts with
  | one h => exact .last (derives_printsExpr h (hes _ List.mem_cons_self) hts)
  | more h _ ih =>
    obtain ⟨he, hes⟩ := List.forall_mem_cons.mp hes
    obtain ⟨ts₁, ts₂, rfl, hts₁, hts₂⟩ := List.map_eq_append_iff.mp hts
    obtain ⟨comma, ts₂, rfl, hcomma, hts₂⟩ := List.map_eq_cons_iff.mp hts₂
    exact .more (derives_printsExpr h he hts₁) (isSymbol_of_piece hcomma rfl) (ih hes hts₂)

theorem derives_printsList {p : Profile} {es : List Expr} {ps : List Piece}
    (h : PrintsList es ps) (hes : ∀ e ∈ es, e.Formed p) {ts : List Token}
    (hts : ts.map Token.piece = ps) : Grammar.ArgumentList p ts es := by
  obtain ⟨qs, rfl⟩ := head_printsList h
  obtain ⟨l, ts, rfl, hl, hts⟩ := List.map_eq_cons_iff.mp hts
  cases h with
  | empty =>
    obtain ⟨r, rfl, hr⟩ := List.map_eq_singleton_iff.mp hts
    exact .empty (isSymbol_of_piece hl rfl) (isSymbol_of_piece hr rfl)
  | full h =>
    obtain ⟨ts₁, ts₂, rfl, hts₁, hts₂⟩ := List.map_eq_append_iff.mp hts
    obtain ⟨r, rfl, hr⟩ := List.map_eq_singleton_iff.mp hts₂
    exact .full (isSymbol_of_piece hl rfl) (derives_printsArguments h hes hts₁)
      (isSymbol_of_piece hr rfl)

theorem derives_printsModifiers {p : Profile} {ms : List Modifier} {ps : List Piece}
    (h : PrintsModifiers ms ps)
    (hms : ∀ m ∈ ms, p.isIdentifier m.name.toList ∧ ∀ e ∈ m.arguments, e.Formed p)
    {ts : List Token} (hts : ts.map Token.piece = ps) : Grammar.Modifiers p ts ms := by
  induction h generalizing ts with
  | nil =>
    obtain rfl := List.map_eq_nil_iff.mp hts
    exact .nil
  | @cons m ms _ _ h _ ih =>
    obtain ⟨⟨-, hargs⟩, hms⟩ := List.forall_mem_cons.mp hms
    obtain ⟨dot, ts, rfl, hdot, hts⟩ := List.map_eq_cons_iff.mp hts
    obtain ⟨name, ts, rfl, hname, hts⟩ := List.map_eq_cons_iff.mp hts
    obtain ⟨ts₁, ts₂, rfl, hts₁, hts₂⟩ := List.map_eq_append_iff.mp hts
    obtain ⟨hkind, htext⟩ := text_of_piece hname
    have := Grammar.Modifiers.cons (isSymbol_of_piece hdot rfl) hkind
      (derives_printsList h hargs hts₁) (ih hms hts₂)
    rwa [htext] at this

/-- The tokens of a component start with its name. -/
theorem name_of_prints {c : Component} {ps : List Piece} (h : Prints c ps) {ts : List Token}
    (hts : ts.map Token.piece = ps) :
    ∃ name rest, ts = name :: rest ∧ name.kind = .identifier ∧ name.text = c.name := by
  cases h with
  | call | bare =>
    obtain ⟨name, ts, rfl, hname, -⟩ := List.map_eq_cons_iff.mp hts
    exact ⟨name, ts, rfl, text_of_piece hname⟩

theorem isCapitalised_of_formed {p : Profile} {c : Component} {t : Token}
    (h : t.kind = .identifier ∧ t.text = c.name) (hc : c.Formed p) : t.isCapitalised := by
  simp [Token.isCapitalised, h.1, h.2, hc.capitalised]

mutual
/-- The pieces of a component derive it, up to its place. -/
theorem derives_prints {p : Profile} {locate : Nat → Place} {c : Component} {ps : List Piece} :
    Prints c ps → (∀ d ∈ c.preorder, d.Formed p) → ∀ {ts : List Token},
      ts.map Token.piece = ps → ∃ c' isSealed,
        Grammar.Component p locate ts c' isSealed ∧ c'.unplaced = c.unplaced
  | .call ha hb hm, hformed, ts, hts => by
    rw [Component.preorder, List.forall_mem_cons] at hformed
    obtain ⟨name, ts, rfl, hname, hts⟩ := List.map_eq_cons_iff.mp hts
    obtain ⟨ts, ts₃, rfl, hts, hts₃⟩ := List.map_eq_append_iff.mp hts
    obtain ⟨ts₁, ts₂, rfl, hts₁, hts₂⟩ := List.map_eq_append_iff.mp hts
    obtain ⟨hkind, htext⟩ := text_of_piece hname
    obtain ⟨inner, hinner, hcs⟩ := derives_printsBlock hb hformed.2 hts₂
    refine ⟨_, _, .call hkind (.present (derives_printsList ha hformed.1.arguments hts₁)) hinner
      (.inl rfl) (derives_printsModifiers hm hformed.1.modifiers hts₃), ?_⟩
    simp [Component.unplaced, hcs, htext]
  | .bare hb hm, hformed, ts, hts => by
    rw [Component.preorder, List.forall_mem_cons] at hformed
    obtain ⟨name, ts, rfl, hname, hts⟩ := List.map_eq_cons_iff.mp hts
    obtain ⟨block, ts₃, rfl, hblock, hts₃⟩ := List.map_eq_append_iff.mp hts
    obtain ⟨l, inner, rfl, hl, hinner⟩ := List.map_eq_cons_iff.mp hblock
    obtain ⟨ts₁, ts₂, rfl, hts₁, hts₂⟩ := List.map_eq_append_iff.mp hinner
    obtain ⟨r, rfl, hr⟩ := List.map_eq_singleton_iff.mp hts₂
    obtain ⟨hkind, htext⟩ := text_of_piece hname
    obtain ⟨cs', hcs', heq⟩ := derives_printsAll hb hformed.2 hts₁
    refine ⟨_, _, .call hkind .absent
      (.present (isSymbol_of_piece hl rfl) hcs' (isSymbol_of_piece hr rfl)) (.inr rfl)
      (derives_printsModifiers hm hformed.1.modifiers hts₃), ?_⟩
    simp [Component.unplaced, heq, htext]

theorem derives_printsBlock {p : Profile} {locate : Nat → Place} {cs : List Component}
    {ps : List Piece} :
    PrintsBlock cs ps → (∀ d ∈ cs.flatMap Component.preorder, d.Formed p) → ∀ {ts : List Token},
      ts.map Token.piece = ps → ∃ inner, Grammar.Block p locate ts inner ∧
        Component.unplacedAll (inner.getD []) = Component.unplacedAll cs
  | .absent, _, ts, hts => by
    obtain rfl := List.map_eq_nil_iff.mp hts
    exact ⟨none, .absent, rfl⟩
  | .present h, hformed, ts, hts => by
    obtain ⟨l, ts, rfl, hl, hts⟩ := List.map_eq_cons_iff.mp hts
    obtain ⟨ts₁, ts₂, rfl, hts₁, hts₂⟩ := List.map_eq_append_iff.mp hts
    obtain ⟨r, rfl, hr⟩ := List.map_eq_singleton_iff.mp hts₂
    obtain ⟨cs', hcs', heq⟩ := derives_printsAll h hformed hts₁
    exact ⟨some cs', .present (isSymbol_of_piece hl rfl) hcs' (isSymbol_of_piece hr rfl), heq⟩

theorem derives_printsAll {p : Profile} {locate : Nat → Place} {cs : List Component}
    {ps : List Piece} :
    PrintsAll cs ps → (∀ d ∈ cs.flatMap Component.preorder, d.Formed p) → ∀ {ts : List Token},
      ts.map Token.piece = ps → ∃ cs', Grammar.Entries p locate ts cs' ∧
        Component.unplacedAll cs' = Component.unplacedAll cs
  | .nil, _, ts, hts => by
    obtain rfl := List.map_eq_nil_iff.mp hts
    exact ⟨[], .nil, rfl⟩
  | .cons h hs, hformed, ts, hts => by
    rw [List.flatMap_cons, List.forall_mem_append] at hformed
    obtain ⟨ts₁, ts₂, rfl, hts₁, hts₂⟩ := List.map_eq_append_iff.mp hts
    obtain ⟨c', isSealed, hc', heq⟩ := derives_prints h hformed.1 hts₁
    obtain ⟨cs', hcs', heqs⟩ := derives_printsAll hs hformed.2 hts₂
    obtain ⟨name, ts₁, rfl, hname⟩ := name_of_prints h hts₁
    have hcapital := isCapitalised_of_formed hname (hformed.1 _ (Component.mem_preorder _))
    exact ⟨c' :: cs', .cons hcapital hc' hcs', by rw [Component.unplacedAll, heq, heqs]; rfl⟩
end

/-! ## The tokens of a forest are surveyed without a diagnostic -/

/-- The last of the tokens closes an argument list or a block. -/
def Closes (ts : List Token) : Prop :=
  ∃ last ∈ ts.getLast?, last.isSymbol ")" ∨ last.isSymbol "\x7d"

theorem Closes.append {ts : List Token} (h : Closes ts) (ts' : List Token) :
    Closes (ts' ++ ts) := by
  obtain ⟨last, hlast, hs⟩ := h
  exact ⟨last, by simp_all, hs⟩

theorem closes_singleton {t : Token} (h : t.isSymbol ")" ∨ t.isSymbol "\x7d") : Closes [t] :=
  ⟨t, rfl, h⟩

theorem closes_of_argumentList {p : Profile} {ts : List Token} {es : List Expr}
    (h : Grammar.ArgumentList p ts es) : Closes ts := by
  cases h with
  | @empty l _ hl hr => exact (closes_singleton (.inl hr)).append [l]
  | @full l _ ts _ hl h hr => exact (closes_singleton (.inl hr)).append (l :: ts)

theorem closes_of_modifiers {p : Profile} {ts : List Token} {ms : List Modifier}
    (h : Grammar.Modifiers p ts ms) : ts = [] ∨ Closes ts := by
  induction h with
  | nil => exact .inl rfl
  | @cons dot name ts ts' _ _ hd hn ha _ ih =>
    right
    rcases ih with rfl | ih
    · rw [List.append_nil]
      exact (closes_of_argumentList ha).append [dot, name]
    · exact ih.append (dot :: name :: ts)

/-- A component ends with its argument list, its block or a modifier. -/
theorem closes_of_component {p : Profile} {locate : Nat → Place} {ts : List Token} {c : Component}
    {isSealed : Bool} (h : Grammar.Component p locate ts c isSealed) : Closes ts := by
  cases h with
  | @call name ts ts' ts'' args inner ms hn ha hb hsome hm =>
    rcases closes_of_modifiers hm with rfl | hm
    · rw [List.append_nil]
      cases hb with
      | @present l _ inner _ hl h hr =>
        exact ((closes_singleton (.inr hr)).append (l :: inner)).append (name :: ts)
      | absent =>
        rw [List.append_nil]
        cases ha with
        | present ha => exact (closes_of_argumentList ha).append [name]
        | absent => simp at hsome
    · exact hm.append (name :: (ts ++ ts'))

namespace Component

mutual
theorem height_unplaced : (c : Component) → c.unplaced.height = c.height
  | ⟨name, arguments, components, modifiers, place⟩ => by
    rw [unplaced, height, height, heightAll_unplacedAll components]

theorem heightAll_unplacedAll : (cs : List Component) →
    heightAll (unplacedAll cs) = heightAll cs
  | [] => rfl
  | c :: cs => by
    rw [unplacedAll, heightAll, heightAll, height_unplaced c, heightAll_unplacedAll cs]
end

end Component

namespace Parser

theorem precludes_of_closes {t : Token} (h : t.isSymbol ")" ∨ t.isSymbol "\x7d") :
    precludesComponent t = false := by
  have hkind : t.kind = .symbol := by rcases h with h | h <;> exact (Token.isSymbol_iff.mp h).1
  have hpoint : t.isSymbol "." = false := by
    rcases h with h | h <;> exact Token.isSymbol_unique h (by decide)
  simp [precludesComponent, hkind, hpoint]

/-- A component that starts at top level is taken whole, and the survey goes on after it. -/
theorem survey_component {ctx : Context} {used rest : List Token} {c : Component}
    {isSealed : Bool} (h : Grammar.Component ctx.profile ctx.locate used c isSealed)
    (hconvertible : ∀ t ∈ used, Grammar.Convertible t) (hheight : c.height ≤ maxDepth)
    (hfollow : Grammar.Follow isSealed (current rest)) (index : Nat) {previous : Option Token}
    (hstart : startsAtTop ctx.profile previous (used ++ rest)) :
    survey ctx index previous (used ++ rest) =
      ⟨⟨index, index + used.length, .node c⟩ ::
          (survey ctx (index + used.length) used.getLast? rest).attempts,
        (survey ctx (index + used.length) used.getLast? rest).halt⟩ := by
  have hread := (component_complete ctx maxDepth h hconvertible rest hfollow).1 hheight
  have hne : used ≠ [] := by
    obtain ⟨name, next, tail, rfl, -⟩ := component_head h
    simp
  exact survey_attempt hstart hne (.node hread)

/-- A printed component starts at top level. -/
theorem startsAtTop_of_prints {p : Profile} {c : Component} {isSealed : Bool}
    {locate : Nat → Place} {c' : Component} {used : List Token}
    (h : Grammar.Component p locate used c' isSealed) {ps : List Piece} (hprints : Prints c ps)
    (hused : used.map Token.piece = ps) (hformed : c.Formed p)
    (hknown : p = .plain → c.name ∈ knownComponents) {previous : Option Token}
    (hprevious : previous.any precludesComponent = false) (rest : List Token) :
    startsAtTop p previous (used ++ rest) := by
  obtain ⟨name, next, tail, rfl, -, hnext⟩ := component_head h
  obtain ⟨_, _, ⟨rfl, rfl⟩, hname⟩ := name_of_prints hprints hused
  have hnames : namesComponent p name := by
    cases p with
    | plain => simp [namesComponent, hname.1, hname.2, hknown rfl]
    | extended => exact isCapitalised_of_formed hname hformed
  simp [startsAtTop, hnames, hprevious, hnext]

/-- What follows a printed component starts with a name or is the end. -/
theorem kind_of_printsAll {cs : List Component} {ps : List Piece} (h : PrintsAll cs ps)
    {ts : List Token} (hts : ts.map Token.piece = ps) {last : Token} (hlast : last.kind = .eof) :
    (current (ts ++ [last])).kind ≠ .symbol := by
  cases h with
  | nil =>
    obtain rfl := List.map_eq_nil_iff.mp hts
    simp [current, hlast]
  | cons h _ =>
    obtain ⟨ts₁, ts₂, rfl, hts₁, -⟩ := List.map_eq_append_iff.mp hts
    obtain ⟨name, ts₁, rfl, hkind, -⟩ := name_of_prints h hts₁
    simp [current, hkind]

/-- The tokens of a printed forest are surveyed without a diagnostic, and the forest is found up to
its places. -/
theorem survey_printsAll (ctx : Context) {nodes : List Component} {ps : List Piece}
    (h : PrintsAll nodes ps) (hwf : ctx.profile.WellFormed nodes)
    (hheight : ∀ c ∈ nodes, c.height ≤ maxDepth) {ts : List Token}
    (hts : ts.map Token.piece = ps) (hconvertible : ∀ t ∈ ts, Grammar.Convertible t)
    {last : Token} (hlast : last.kind = .eof) (index : Nat) (previous : Option Token)
    (hprevious : previous.any precludesComponent = false) :
    ∃ attempts, survey ctx index previous (ts ++ [last]) = ⟨attempts, none⟩ ∧
      Survey.diagnostics ⟨attempts, none⟩ = [] ∧
      Component.unplacedAll (Survey.nodes ⟨attempts, none⟩) = Component.unplacedAll nodes := by
  induction nodes generalizing ps ts index previous with
  | nil =>
    cases h
    obtain rfl := List.map_eq_nil_iff.mp hts
    exact ⟨[], by simp [survey, hlast], rfl, rfl⟩
  | cons c cs ih =>
    cases h with
    | cons hc hcs =>
      obtain ⟨used, ts, rfl, hused, hts⟩ := List.map_eq_append_iff.mp hts
      obtain ⟨hformed, hrest⟩ : (∀ d ∈ c.preorder, d.Formed ctx.profile) ∧
          ctx.profile.WellFormed cs := by
        have hall := hwf.formed
        rw [List.flatMap_cons, List.forall_mem_append] at hall
        exact ⟨hall.1, hall.2, fun hp d hd => hwf.known hp d (List.mem_cons_of_mem c hd)⟩
      obtain ⟨c', isSealed, hc', heq⟩ := derives_prints hc hformed hused
      have hstart := startsAtTop_of_prints hc' hc hused (hformed c c.mem_preorder)
        (fun hp => hwf.known hp c List.mem_cons_self) hprevious (ts ++ [last])
      have hfollow := follow_of_kind_ne (kind_of_printsAll hcs hts hlast) isSealed
      have hclosed : used.getLast?.any precludesComponent = false := by
        obtain ⟨t, ht, hsymbol⟩ := closes_of_component hc'
        rw [Option.mem_def.mp ht, Option.any_some, precludes_of_closes hsymbol]
      have hheight' : c.height = c'.height := by
        rw [← c.height_unplaced, ← c'.height_unplaced, heq]
      have hstep := survey_component hc' (fun t ht => hconvertible t (by simp [ht]))
        (hheight' ▸ hheight c List.mem_cons_self) hfollow index hstart
      obtain ⟨attempts, hsurvey, hdiagnostics, hnodes⟩ := ih hcs hrest
        (fun d hd => hheight d (List.mem_cons_of_mem c hd)) hts
        (fun t ht => hconvertible t (by simp [ht])) (index + used.length) _ hclosed
      rw [List.append_assoc, hstep, hsurvey]
      refine ⟨_, rfl, hdiagnostics, ?_⟩
      rw [Survey.nodes_node, Component.unplacedAll, heq, hnodes, Component.unplacedAll]

end Parser

/-- **Printing then parsing is the identity, up to places.** A well-formed forest that is not nested
too deeply can be written as markup, and however it is written, with any blanks and comments around
its tokens, reading it gives no diagnostics and the same forest up to its places. -/
theorem parse_rendering (filename : String) (nodes : List Component)
    (hwf : (Profile.ofFilename filename).WellFormed nodes)
    (hheight : ∀ c ∈ nodes, c.height ≤ maxDepth) :
    (∃ text, Rendering nodes text) ∧
      ∀ text, Rendering nodes text → ∃ nodes', parse text filename = .ok ⟨nodes', []⟩ ∧
        Component.unplacedAll nodes' = Component.unplacedAll nodes := by
  refine ⟨exists_rendering hwf, ?_⟩
  rintro text ⟨ps, hprints, hlaid⟩
  have hlegal : Legal (.ofFilename filename) ps := by
    have hnil : Legal (.ofFilename filename) [] := ⟨by simp, by simp⟩
    have := legal_printsAll hprints hwf.formed hnil
    rwa [List.append_nil] at this
  obtain ⟨ts, htokens, hts⟩ := tokensFrom_laid hlaid hlegal.1 hlegal.2 0
  have hconvertible : ∀ t ∈ ts, Grammar.Convertible t := fun t ht =>
    convertible_of_valid (hlegal.1 t.piece (hts ▸ List.mem_map_of_mem ht))
  have hlast : (Token.endOfText (0 + text.toList.length)).kind = .eof := rfl
  obtain ⟨attempts, hsurvey, hdiagnostics, hnodes⟩ := Parser.survey_printsAll
    (.ofSource (.ofFilename filename) text) hprints hwf hheight hts hconvertible hlast 0 none rfl
  refine ⟨Survey.nodes ⟨attempts, none⟩, ?_, hnodes⟩
  rw [parse, Survey.ofSource, tokenize, htokens, hsurvey, Survey.forest, hdiagnostics]

/-- A card with a text in it: a string that needs escapes, a negative number, a decimal and a dotted
reference. -/
def cardForest : List Component :=
  [⟨"Card", [.text "\"a\\\n", .number (.int (-5)), .number (.real (Decimal.ofLiteral ['1'] ['5']))],
    [⟨"Text", [.reference "user.name"], [], [⟨"bold", []⟩], .start⟩], [], .start⟩]

theorem cardForest_wellFormed : (Profile.ofFilename "card.tui.ts").WellFormed cardForest := by
  have hprofile : Profile.ofFilename "card.tui.ts" = .extended := by decide
  rw [hprofile]
  refine ⟨?_, nofun⟩
  simp only [cardForest, List.flatMap_cons, List.flatMap_nil, Component.preorder, List.append_nil,
    List.forall_mem_cons]
  refine ⟨⟨by decide, by decide, ?_, by simp⟩, ⟨by decide, by decide, ?_, ?_⟩, by simp⟩
  · simp only [List.forall_mem_cons]
    have hdigits : (Nat.toDigits 10 5).length ≤ Literal.maxIntegerDigits := by decide
    exact ⟨trivial, hdigits, ⟨['1'], ['5'], by decide, by decide, .inl rfl⟩, by simp⟩
  · simp only [List.forall_mem_cons]
    exact ⟨⟨by decide, nofun⟩, by simp⟩
  · simp only [List.forall_mem_cons]
    exact ⟨⟨by decide, by simp⟩, by simp⟩

theorem parse_rendering_card :
    (∃ text, Rendering cardForest text) ∧
      ∀ text, Rendering cardForest text → ∃ nodes',
        parse text "card.tui.ts" = .ok ⟨nodes', []⟩ ∧
          Component.unplacedAll nodes' = Component.unplacedAll cardForest :=
  parse_rendering "card.tui.ts" cardForest cardForest_wellFormed (by decide)

end UiMarkup
