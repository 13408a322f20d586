import UiMarkup.Proofs.Generation
import UiMarkup.Proofs.Lowercasing

/-!
# Generated lines hold no line end

The names and references of a component come from identifiers, so they hold no line end; strings are
escaped where they stand in generated code, and numbers are spelled with digits. Hence each line of
a statement is a single line.

* `Component.Legible c`: the names and references of `c` can stand in a line of code.
* `legible_ownStatements`: the statements of a legible component hold no line end.
-/

namespace UiMarkup

namespace Text

/-- The text holds no line end. -/
def SingleLine (s : String) : Prop :=
  '\n' ∉ s.toList

instance (s : String) : Decidable (SingleLine s) :=
  inferInstanceAs (Decidable ('\n' ∉ s.toList))

@[simp] theorem singleLine_append (s t : String) :
    SingleLine (s ++ t) ↔ SingleLine s ∧ SingleLine t := by
  simp [SingleLine, not_or]

@[simp] theorem singleLine_ofList (s : List Char) :
    SingleLine (String.ofList s) ↔ '\n' ∉ s := by
  simp [SingleLine]

theorem newline_not_mem_toDigits (n : Nat) : '\n' ∉ Nat.toDigits 10 n := by
  intro h
  have := Nat.isDigit_of_mem_toDigits (by decide) (by decide) h
  simp at this

@[simp] theorem singleLine_repr (n : Nat) : SingleLine n.repr := by
  rw [SingleLine, Nat.toList_repr]
  exact newline_not_mem_toDigits n

theorem singleLine_toString_int (n : Int) : SingleLine (toString n) := by
  cases n with
  | ofNat n => exact singleLine_repr n
  | negSucc n => exact (singleLine_append "-" _).mpr ⟨by decide, singleLine_repr (n + 1)⟩

theorem newline_not_mem_doubleQuotedChar (c : Char) : '\n' ∉ doubleQuotedChar c := by
  have hcode : ∀ n < 32, '\n' ∉ hexPadded 4 n := by decide
  unfold doubleQuotedChar
  repeat' split
  all_goals grind

/-- Quoting escapes line ends. -/
@[simp] theorem singleLine_doubleQuoted (s : String) : SingleLine (doubleQuoted s) := by
  have := newline_not_mem_doubleQuotedChar
  simp only [doubleQuoted, singleLine_ofList]
  grind

theorem toLower_ne_newline {c : Char} (h : c ≠ '\n') : c.toLower ≠ '\n' := by
  unfold Char.toLower
  split
  · intro heq
    have hval : c.val + ('a'.val - 'A'.val) = '\n'.val := congrArg Char.val heq
    grind
  · exact h

theorem singleLine_lower {s : String} (h : ∀ c ∈ s.toList, c.toNat < 0x80 ∧ c ≠ '\n') :
    SingleLine (lower s) := by
  rw [lower, singleLine_ofList, lowerAfter_of_ascii fun c hc => (h c hc).1, List.mem_map]
  rintro ⟨c, hc, hnewline⟩
  exact toLower_ne_newline (h c hc).2 hnewline

end Text

/-! ## Numbers -/

namespace Decimal

theorem newline_not_mem_exponentText (e : Int) : '\n' ∉ exponentText e := by
  have := Text.newline_not_mem_toDigits e.natAbs
  unfold exponentText
  grind

theorem Scientific.newline_not_mem_text (f : Format) {s : Scientific} (h : '\n' ∉ s.digits) :
    '\n' ∉ s.text f := by
  have := newline_not_mem_exponentText s.exponent
  unfold Scientific.text
  grind

theorem Binary.newline_not_mem_shortest (x : Binary) : '\n' ∉ x.shortest.digits := by
  unfold shortest
  split
  · simp
  · next n power _ =>
    intro h
    have hdigits : '\n' ∈ decimalDigits n := by
      have := (List.dropWhile_suffix _).mem (List.mem_reverse.mp h)
      exact List.mem_reverse.mp this
    exact Text.newline_not_mem_toDigits n hdigits

theorem singleLine_plain_text (x : Float) : Text.SingleLine (plain.text x) := by
  have hsigned {s : String} (h : Text.SingleLine s) :
      Text.SingleLine (if isNegative x then "-" ++ s else s) := by
    split
    · exact (Text.singleLine_append "-" s).mpr ⟨by decide, h⟩
    · exact h
  unfold Format.text
  cases magnitude x with
  | zero => exact hsigned (s := "0.0") (by decide)
  | finite b =>
    have hdigits := Scientific.newline_not_mem_text plain b.newline_not_mem_shortest
    exact hsigned ((Text.singleLine_ofList _).mpr hdigits)
  | infinite => exact hsigned (s := plain.infinity) (by decide)
  | notANumber =>
    show Text.SingleLine plain.notANumber
    decide

end Decimal

@[simp] theorem Number.singleLine_text (n : Number) : Text.SingleLine n.text := by
  cases n with
  | int n => exact Text.singleLine_toString_int n
  | real x => exact Decimal.singleLine_plain_text x

/-! ## Arguments and effects -/

/-- The references in an argument hold no line end. -/
def Expr.Legible : Expr → Prop
  | .reference name => Text.SingleLine name
  | _ => True

namespace Expr

theorem Legible.script {e : Expr} (h : e.Legible) : Text.SingleLine e.script := by
  cases e with
  | text s => simp [Expr.script]
  | number n => simp [Expr.script]
  | reference name => exact h

theorem Legible.length {e : Expr} (h : e.Legible) : Text.SingleLine e.length := by
  cases e with
  | text s => simp [Expr.length]
  | number n => simp [Expr.length]
  | reference name =>
    simp only [Expr.length, Text.singleLine_append]
    exact ⟨⟨by decide, h⟩, by decide⟩

theorem singleLine_content {e : Option Expr} (h : ∀ x ∈ e, x.Legible) :
    Text.SingleLine (content e) := by
  match e with
  | none => simp [content]
  | some (.text s) => simp [content]
  | some (.number n) => simp [content]
  | some (.reference name) => exact h _ rfl

end Expr

/-- The texts of an effect hold no line end. -/
def Effect.Legible : Effect → Prop
  | .style key value => Text.SingleLine key ∧ Text.SingleLine value
  | .event name handler => Text.SingleLine name ∧ Text.SingleLine handler

namespace Handler

/-- A handler makes legible effects out of legible arguments. -/
def Legible (handler : Handler) : Prop :=
  ∀ args : List Expr, (∀ e ∈ args, e.Legible) → ∀ effect ∈ handler args, effect.Legible

theorem legible_ofStyle {key : String} {render : Expr → String} (hkey : Text.SingleLine key)
    (hrender : ∀ e : Expr, e.Legible → Text.SingleLine (render e)) :
    (ofStyle key render).Legible := by
  intro args hargs effect heffect
  cases args with
  | nil => simp [ofStyle] at heffect
  | cons e args =>
    obtain rfl := List.mem_singleton.mp heffect
    exact ⟨hkey, hrender e (hargs e List.mem_cons_self)⟩

theorem legible_padding : padding.Legible := by
  intro args hargs effect heffect
  cases args with
  | nil =>
    obtain rfl := List.mem_singleton.mp heffect
    exact ⟨by decide, Text.singleLine_doubleQuoted _⟩
  | cons e args =>
    obtain rfl := List.mem_singleton.mp heffect
    exact ⟨by decide, (hargs e List.mem_cons_self).length⟩

theorem legible_frame : Legible frame := by
  intro args hargs effect heffect
  obtain ⟨⟨key, e⟩, hmem, rfl⟩ := List.mem_map.mp heffect
  have hzip := List.of_mem_zip hmem
  have hkey : ∀ key ∈ ["width", "height"], Text.SingleLine key := by decide
  exact ⟨hkey key hzip.1, (hargs e hzip.2).length⟩

theorem legible_onTap : onTap.Legible := by
  intro args hargs effect heffect
  match args with
  | .reference name :: args =>
    obtain rfl := List.mem_singleton.mp heffect
    exact ⟨by decide, hargs _ List.mem_cons_self⟩
  | [] => simp [onTap] at heffect
  | .text s :: args => simp [onTap] at heffect
  | .number n :: args => simp [onTap] at heffect

theorem legible_builtIn : ∀ entry ∈ builtIn, entry.2.Legible := by
  simp only [builtIn, List.forall_mem_cons]
  have hscript := fun (e : Expr) (h : e.Legible) => h.script
  have hlength := fun (e : Expr) (h : e.Legible) => h.length
  exact ⟨legible_padding, legible_ofStyle (by decide) hscript, legible_ofStyle (by decide) hscript,
    legible_ofStyle (by decide) hlength, legible_ofStyle (by decide) hlength,
    legible_ofStyle (by decide) hscript, legible_frame, legible_onTap, by simp⟩

end Handler

/-! ## Statements -/

/-- The names and references of a component can stand in a line of code. -/
structure Component.Legible (c : Component) : Prop where
  name : ∀ x ∈ c.name.toList, x.toNat < 0x80 ∧ x ≠ '\n'
  arguments : ∀ e ∈ c.arguments, e.Legible
  modifiers : ∀ m ∈ c.modifiers, ∀ e ∈ m.arguments, e.Legible

namespace Statement

/-- The texts that a statement fills into its lines. -/
def texts : Statement → List String
  | comment component => [component]
  | declare x tag => [x.name, tag]
  | setClass x classes => [x.name, classes]
  | setText x value => [x.name, value]
  | bindText x reference => [x.name, reference]
  | setStyles x styles => x.name :: styles.flatMap fun (key, value) => [key, value]
  | listen x event handler => [x.name, event, handler]
  | append parent child => [parent.name, child.name]
  | blank => []

/-- The texts of a statement hold no line end. -/
def Legible (s : Statement) : Prop :=
  ∀ text ∈ s.texts, Text.SingleLine text

/-- The lines of a legible statement are single lines. -/
theorem Legible.lines {s : Statement} (h : s.Legible) {keyword : String}
    (hk : Text.SingleLine keyword) : ∀ line ∈ s.lines keyword, Text.SingleLine line := by
  cases s with
  | setStyles x styles =>
    simp only [Legible, texts, List.forall_mem_cons, List.forall_mem_flatMap] at h
    simp only [Statement.lines, List.cons_append, List.forall_mem_cons, List.forall_mem_append,
      List.forall_mem_map, Text.singleLine_append]
    refine ⟨⟨⟨by decide, h.1⟩, by decide⟩, ?_, by decide, by simp⟩
    intro pair hpair
    obtain ⟨hkey, hvalue, -⟩ := h.2 pair hpair
    exact ⟨⟨⟨⟨by decide, hkey⟩, by decide⟩, hvalue⟩, by decide⟩
  | _ =>
    simp only [Legible, texts, List.forall_mem_cons] at h
    simp +decide [Statement.lines, hk, h]

/-- Only the line of the empty statement is empty. -/
theorem line_ne_empty {s : Statement} (h : s ≠ .blank) (keyword : String) :
    ∀ line ∈ s.lines keyword, line ≠ "" := by
  cases s with
  | blank => exact absurd rfl h
  | setStyles x styles =>
    simp only [Statement.lines, List.cons_append, List.forall_mem_cons, List.forall_mem_append,
      List.forall_mem_map]
    simp
  | _ => simp [Statement.lines]

end Statement

namespace Component

theorem singleLine_descriptor (c : Component) :
    Text.SingleLine (Descriptor.ofName c.name).tag ∧
      Text.SingleLine (Descriptor.ofName c.name).stem ∧
      (c.Legible → Text.SingleLine (Descriptor.ofName c.name).classes) := by
  have htable : ∀ entry ∈ Descriptor.builtIn, Text.SingleLine entry.2.tag ∧
      Text.SingleLine entry.2.stem ∧ Text.SingleLine entry.2.classes := by
    decide
  obtain ⟨entry, hentry, heq⟩ | heq := Descriptor.ofName_cases c.name
  · obtain ⟨htag, hstem, hclasses⟩ := htable entry hentry
    rw [heq]
    exact ⟨htag, hstem, fun _ => hclasses⟩
  · rw [heq]
    refine ⟨(by decide : Text.SingleLine "div"), (by decide : Text.SingleLine "element"), ?_⟩
    intro h
    exact (Text.singleLine_append _ _).mpr ⟨by decide, Text.singleLine_lower h.name⟩

@[simp] theorem singleLine_var (c : Component) (index : Nat) :
    Text.SingleLine (c.var index).name := by
  simp [var, Var.name, c.singleLine_descriptor.2.1]

theorem legible_effects {c : Component} (h : c.Legible) :
    ∀ effect ∈ c.effects .builtIn, effect.Legible := by
  intro effect heffect
  obtain ⟨m, hm, heffect⟩ := List.mem_flatMap.mp heffect
  simp only [Registry.effects, Registry.builtIn] at heffect
  split at heffect
  · simp at heffect
  · next handler hfind =>
    obtain ⟨l₁, l₂, hl, -⟩ := List.lookup_eq_some_iff.mp hfind
    have hentry : (m.name, handler) ∈ Handler.builtIn := by rw [hl]; simp
    exact Handler.legible_builtIn _ hentry _ (h.modifiers m hm) effect heffect

theorem legible_write {styles : Styles} {key value : String}
    (h : ∀ pair ∈ styles, (Effect.style pair.1 pair.2).Legible)
    (hwrite : (Effect.style key value).Legible) :
    ∀ pair ∈ styles.write key value, (Effect.style pair.1 pair.2).Legible := by
  unfold Styles.write
  split
  · intro pair hpair
    obtain ⟨⟨k, v⟩, hmem, rfl⟩ := List.mem_map.mp hpair
    dsimp only
    split
    · next hk => exact hk ▸ hwrite
    · exact h _ hmem
  · intro pair hpair
    rcases List.mem_append.mp hpair with hpair | hpair
    · exact h pair hpair
    · obtain rfl := List.mem_singleton.mp hpair
      exact hwrite

theorem legible_styles {c : Component} (h : c.Legible) :
    ∀ pair ∈ c.styles .builtIn, (Effect.style pair.1 pair.2).Legible := by
  have hgap : ∀ pair ∈ (c.gap?.map fun value => ("gap", value)).toList,
      (Effect.style pair.1 pair.2).Legible := by
    intro pair hpair
    obtain ⟨value, hvalue, rfl⟩ := by simpa using hpair
    refine ⟨(by decide : Text.SingleLine "gap"), ?_⟩
    unfold gap? at hvalue
    split at hvalue
    · split at hvalue
      · next n _ _ =>
        obtain rfl := Option.some.inj hvalue
        exact Expr.Legible.length (e := .number n) trivial
      · simp at hvalue
    · simp at hvalue
  have hfold (effects : List Effect) (styles : Styles) (he : ∀ e ∈ effects, e.Legible)
      (hs : ∀ pair ∈ styles, (Effect.style pair.1 pair.2).Legible) :
      ∀ pair ∈ effects.foldl (fun styles effect =>
        match effect with
        | .style key value => styles.write key value
        | .event _ _ => styles) styles, (Effect.style pair.1 pair.2).Legible := by
    induction effects generalizing styles with
    | nil => exact hs
    | cons effect effects ih =>
      obtain ⟨heffect, hrest⟩ := List.forall_mem_cons.mp he
      cases effect with
      | style key value => exact ih _ hrest (legible_write hs heffect)
      | event name handler => exact ih _ hrest hs
  exact hfold _ _ (legible_effects h) hgap

theorem legible_events {c : Component} (h : c.Legible) :
    ∀ pair ∈ c.events .builtIn, (Effect.event pair.1 pair.2).Legible := by
  intro pair hpair
  obtain ⟨effect, heffect, heq⟩ := List.mem_filterMap.mp hpair
  have := legible_effects h effect heffect
  cases effect with
  | style key value => simp at heq
  | event name handler =>
    obtain rfl := Option.some.inj heq
    exact this

/-- The statements of a legible component are legible. -/
theorem legible_ownStatements {c : Component} (h : c.Legible) (index : Nat) :
    ∀ s ∈ c.ownStatements .builtIn (c.var index), s.Legible := by
  obtain ⟨htag, -, hclasses⟩ := c.singleLine_descriptor
  have hname : Text.SingleLine c.name := fun hmem => (h.name _ hmem).2 rfl
  have htext : ∀ s ∈ c.textStatements (c.var index), s.Legible := by
    have hcontent : ∀ e ∈ c.arguments.head?, e.Legible :=
      fun e he => h.arguments e (List.mem_of_mem_head? he)
    unfold textStatements
    split
    · split
      · next name hhead =>
        have : Text.SingleLine name := hcontent _ hhead
        simp [Statement.Legible, Statement.texts, this]
      · simp [Statement.Legible, Statement.texts, Expr.singleLine_content hcontent]
    · simp
  have hstyles : (Statement.setStyles (c.var index) (c.styles .builtIn)).Legible := by
    have := legible_styles h
    simp only [Statement.Legible, Statement.texts, List.forall_mem_cons, List.forall_mem_flatMap]
    refine ⟨c.singleLine_var index, fun pair hpair => ?_⟩
    simpa [Effect.Legible] using this pair hpair
  have hevents : ∀ pair ∈ c.events .builtIn,
      (Statement.listen (c.var index) pair.1 pair.2).Legible := by
    intro pair hpair
    obtain ⟨hevent, hhandler⟩ := legible_events h pair hpair
    simp [Statement.Legible, Statement.texts, hevent, hhandler]
  simp only [ownStatements, List.forall_mem_append, List.forall_mem_cons, List.forall_mem_map]
  refine ⟨⟨⟨⟨?_, ?_, ?_, by simp⟩, htext⟩, ?_⟩, hevents⟩
  · simp [Statement.Legible, Statement.texts, hname]
  · simp [Statement.Legible, Statement.texts, htag]
  · simp [Statement.Legible, Statement.texts, hclasses h]
  · split
    · simp
    · simpa using hstyles

end Component

end UiMarkup
