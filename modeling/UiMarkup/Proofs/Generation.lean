import UiMarkup.Dom.Module
import UiMarkup.Proofs.Document

/-!
# Generated code builds the documents of its components

The statements of a component, executed where all variables have smaller numbers, add the tree of
the component to the workspace and leave the other trees alone (`run_emit`). The statements of
contained components put their trees into the element of the container (`run_emitInto`). Variables
are compared by their names, so the proof rests on stems without digits (`Var.name_inj`).

Main statement: `generated_statements_build_documents`.
-/

namespace UiMarkup

/-! ## Names of variables -/

namespace Var

/-- The stem has no digits, so that the digits of the name are those of the number. -/
def Plain (x : Var) : Prop :=
  ∀ c ∈ x.stem.toList, c.isDigit = false

theorem filter_isDigit_name {x : Var} (h : x.Plain) :
    x.name.toList.filter Char.isDigit = Nat.toDigits 10 x.index := by
  have hstem : x.stem.toList.filter Char.isDigit = [] := by
    rw [List.filter_eq_nil_iff]
    intro c hc
    simp [h c hc]
  have hdigits : (Nat.toDigits 10 x.index).filter Char.isDigit = Nat.toDigits 10 x.index := by
    rw [List.filter_eq_self]
    intro c hc
    exact Nat.isDigit_of_mem_toDigits (by decide) (by decide) hc
  simp only [name, String.toList_append, List.filter_append, hstem, Nat.toString_eq_repr,
    Nat.toList_repr, hdigits, List.nil_append]

/-- Variables of the same name have the same number. -/
theorem name_inj {x y : Var} (hx : x.Plain) (hy : y.Plain) (h : x.name = y.name) :
    x.index = y.index := by
  have hdigits : Nat.toDigits 10 x.index = Nat.toDigits 10 y.index := by
    rw [← filter_isDigit_name hx, ← filter_isDigit_name hy, h]
  have hvalue := congrArg (Nat.ofDigitChars 10 · 0) hdigits
  simpa [Nat.ofDigitChars_ten_toDigits] using hvalue

end Var

/-- A descriptor is one of those in the table, or the one of a container that has none there. -/
theorem Descriptor.ofName_cases (name : String) :
    (∃ entry ∈ builtIn, ofName name = entry.2) ∨
      ofName name = ⟨"div", "tachui-" ++ Text.lower name, "element", false, false⟩ := by
  unfold ofName
  cases h : builtIn.lookup name with
  | none => exact .inr rfl
  | some d =>
    obtain ⟨l₁, l₂, hl, -⟩ := List.lookup_eq_some_iff.mp h
    exact .inl ⟨(name, d), by rw [hl]; simp, rfl⟩

theorem Component.var_plain (c : Component) (index : Nat) : (c.var index).Plain := by
  unfold Var.Plain var
  obtain ⟨entry, hmem, heq⟩ | heq := Descriptor.ofName_cases c.name
  · have htable : Descriptor.builtIn.all
        (fun entry => entry.2.stem.toList.all (fun c => !c.isDigit)) = true := by decide
    rw [heq]
    simpa using List.all_eq_true.1 htable entry hmem
  · rw [heq]
    simp

/-! ## Workspaces -/

namespace Dom

open ElementTree

@[simp] theorem namesAll_append (w w' : Workspace) :
    namesAll (w ++ w') = namesAll w ++ namesAll w' := by
  induction w with
  | nil => rfl
  | cons t w ih => simp [namesAll, ih]

@[simp] theorem alterAll_append (x : String)
    (f : ElementTree (String × Element) → ElementTree (String × Element)) (w w' : Workspace) :
    alterAll x f (w ++ w') = alterAll x f w ++ alterAll x f w' := by
  induction w with
  | nil => rfl
  | cons t w ih => simp [alterAll, ih]

/-- The variable of a tree is one of its variables. -/
theorem value_mem_names (t : ElementTree (String × Element)) : t.value.1 ∈ t.names := by
  cases t
  simp [names]

theorem value_mem_namesAll {w : Workspace} {t : ElementTree (String × Element)} (h : t ∈ w) :
    t.value.1 ∈ namesAll w := by
  induction w with
  | nil => simp at h
  | cons t' w ih =>
    rw [namesAll, List.mem_append]
    rcases List.mem_cons.mp h with rfl | h
    · exact .inl (value_mem_names t)
    · exact .inr (ih h)

mutual
/-- Changing a variable that a tree does not have leaves the tree alone. -/
theorem alter_of_not_mem {x : String}
    (f : ElementTree (String × Element) → ElementTree (String × Element)) :
    (t : ElementTree (String × Element)) → x ∉ t.names → t.alter x f = t
  | ⟨(name, element), children⟩, h => by
    simp only [names, List.mem_cons, not_or] at h
    rw [alter, if_neg (Ne.symm h.1), alterAll_of_not_mem f children h.2]

theorem alterAll_of_not_mem {x : String}
    (f : ElementTree (String × Element) → ElementTree (String × Element)) :
    (w : Workspace) → x ∉ namesAll w → alterAll x f w = w
  | [], _ => rfl
  | t :: w, h => by
    simp only [namesAll, List.mem_append, not_or] at h
    rw [alterAll, alter_of_not_mem f t h.1, alterAll_of_not_mem f w h.2]
end

/-- Changing the variable of the last tree changes the root of that tree alone. -/
theorem alterAll_last {x : String} {w : Workspace} (h : x ∉ namesAll w)
    (f : ElementTree (String × Element) → ElementTree (String × Element)) (e : Element)
    (children : Workspace) :
    alterAll x f (w ++ [⟨(x, e), children⟩]) = w ++ [f ⟨(x, e), children⟩] := by
  rw [alterAll_append, alterAll_of_not_mem f w h]
  simp [alterAll, alter]

theorem update_last {x : Var} {w : Workspace} (h : x.name ∉ namesAll w) (f : Element → Element)
    (e : Element) (children : Workspace) :
    update x f (w ++ [⟨(x.name, e), children⟩]) = some (w ++ [⟨(x.name, f e), children⟩]) := by
  rw [update, if_pos (by simp [namesAll, names]), alterAll_last h]

/-- The last tree becomes a child of the root of the tree before it. -/
theorem adopt_last {parent child : Var} {w : Workspace} (hp : parent.name ∉ namesAll w)
    (hc : child.name ∉ namesAll w) (hne : parent.name ≠ child.name) (e e' : Element)
    (children children' : Workspace) :
    adopt parent child (w ++ [⟨(parent.name, e), children⟩, ⟨(child.name, e'), children'⟩]) =
      some (w ++ [⟨(parent.name, e), children ++ [⟨(child.name, e'), children'⟩]⟩]) := by
  have hroots : ∀ t ∈ w, t.value.1 ≠ child.name := by
    intro t ht heq
    exact hc (heq ▸ value_mem_namesAll ht)
  have hfind : w.find? (·.value.1 = child.name) = none := by
    rw [List.find?_eq_none]
    intro t ht
    simpa using hroots t ht
  have hothers : w.filter (·.value.1 ≠ child.name) = w := by
    rw [List.filter_eq_self]
    intro t ht
    simpa using hroots t ht
  unfold adopt
  rw [List.find?_append, hfind, List.filter_append, hothers]
  simp only [hne, List.find?_cons, decide_false, decide_true, Option.none_or, ne_eq,
    List.filter_cons, not_false_eq_true, not_true_eq_false, if_true, List.filter_nil,
    Bool.false_eq_true, if_false]
  rw [if_pos (by simp [namesAll, names]), alterAll_last hp]

@[simp] theorem run_nil (w : Workspace) : run w [] = some w := rfl

theorem run_cons {w w' : Workspace} {s : Statement} (h : step w s = some w')
    (ss : List Statement) : run w (s :: ss) = run w' ss := by
  simp [run, h]

theorem run_append {w w' : Workspace} {ss : List Statement} (h : run w ss = some w')
    (ss' : List Statement) : run w (ss ++ ss') = run w' ss' := by
  unfold run at h ⊢
  rw [List.foldlM_append, h]
  rfl

/-! ## Styles -/

theorem lookup_pair_cons (k k' v : String) (pairs : List (String × String)) :
    ((k', v) :: pairs).lookup k = if k = k' then some v else pairs.lookup k := by
  by_cases h : k = k'
  · simp [h]
  · simp [List.lookup_cons, h, beq_false_of_ne h]

/-- After several writes, a property has the value of the last write of it. -/
theorem assign_eq_lookup (styles : String → Option String) (pairs : List (String × String))
    (key : String) : assign styles pairs key = (pairs.reverse.lookup key).or (styles key) := by
  induction pairs generalizing styles with
  | nil => rfl
  | cons pair pairs ih =>
    obtain ⟨k, v⟩ := pair
    have hstep : assign styles ((k, v) :: pairs) key =
        assign (fun k' => if k' = k then some v else styles k') pairs key := rfl
    rw [hstep, ih, List.reverse_cons, List.lookup_append, Option.or_assoc, lookup_pair_cons]
    by_cases h : key = k <;> simp [h]

theorem lookup_map_replace (key value : String) (pairs : List (String × String)) (k : String) :
    (pairs.map fun (k', v) => if k' = key then (k', value) else (k', v)).lookup k =
      if k = key ∧ pairs.any (·.1 == key) then some value else pairs.lookup k := by
  induction pairs with
  | nil => simp
  | cons pair pairs ih =>
    obtain ⟨k', v⟩ := pair
    rw [List.map_cons, lookup_pair_cons]
    by_cases hkey : k' = key
    · simp only [hkey, ↓reduceIte, lookup_pair_cons, ih]
      by_cases hk : k = key <;> simp [hk]
    · simp only [hkey, ↓reduceIte, lookup_pair_cons, ih, List.any_cons, beq_false_of_ne hkey,
        Bool.false_or]
      by_cases hk : k = k'
      · simp [hk, hkey]
      · simp [hk]

/-- Writing a property changes the value of that property alone. -/
theorem lookup_reverse_write (styles : Styles) (key value k : String) :
    (styles.write key value).reverse.lookup k =
      if k = key then some value else styles.reverse.lookup k := by
  unfold Styles.write
  split
  · next h =>
    rw [← List.map_reverse, lookup_map_replace]
    simp [h]
  · rw [List.reverse_append, List.reverse_singleton, List.singleton_append, lookup_pair_cons]

end Dom

namespace Component

open Dom ElementTree

theorem gap?_toList (c : Component) :
    (c.gap?.map fun value => ("gap", value)).toList = c.gapWrites := by
  unfold gap? gapWrites
  cases (Descriptor.ofName c.name).takesSpacing with
  | false => rfl
  | true =>
    cases c.arguments with
    | nil => rfl
    | cons e _ => cases e <;> rfl

/-- The batch of styles holds the same values as the writes that it was made from. -/
theorem lookup_reverse_styles (registry : Registry) (c : Component) (key : String) :
    (c.styles registry).reverse.lookup key = (c.styleWrites registry).reverse.lookup key := by
  unfold styles styleWrites
  rw [gap?_toList]
  generalize c.gapWrites = batch
  induction c.effects registry generalizing batch with
  | nil => simp
  | cons effect effects ih =>
    cases effect with
    | style k v =>
      simp only [List.foldl_cons, ih, List.filterMap_cons, Effect.style?, List.reverse_append,
        List.reverse_cons, List.lookup_append, lookup_reverse_write, lookup_pair_cons,
        Option.or_assoc]
      by_cases h : key = k <;> simp [h]
    | event name handler => simp [ih, List.filterMap_cons, Effect.style?]

theorem events_eq (registry : Registry) (c : Component) :
    c.events registry = (c.effects registry).filterMap Effect.event? := by
  unfold events
  congr 1

/-! ## Statements of one component -/

section

variable {x : Var} {w : Workspace} (hx : x.name ∉ namesAll w)

include hx

theorem step_setClass (e : Element) (classes : String) :
    step (w ++ [⟨(x.name, e), []⟩]) (.setClass x classes) =
      some (w ++ [⟨(x.name, { e with classes }), []⟩]) := by
  rw [step, update_last hx]

theorem step_setText (e : Element) (text : String) :
    step (w ++ [⟨(x.name, e), []⟩]) (.setText x (Text.doubleQuoted text)) =
      some (w ++ [⟨(x.name, { e with content := .fixed text }), []⟩]) := by
  simp only [step, Text.literalValue?_doubleQuoted]
  exact update_last hx _ e []

theorem step_bindText (e : Element) (reference : String) :
    step (w ++ [⟨(x.name, e), []⟩]) (.bindText x reference) =
      some (w ++ [⟨(x.name, { e with content := .following reference }), []⟩]) := by
  rw [step, update_last hx]

theorem step_setStyles (e : Element) (pairs : List (String × String)) :
    step (w ++ [⟨(x.name, e), []⟩]) (.setStyles x pairs) =
      some (w ++ [⟨(x.name, { e with styles := assign e.styles pairs }), []⟩]) := by
  rw [step, update_last hx]

theorem step_listen (e : Element) (event handler : String) :
    step (w ++ [⟨(x.name, e), []⟩]) (.listen x event handler) =
      some (w ++ [⟨(x.name, { e with listeners := e.listeners ++ [(event, handler)] }), []⟩]) := by
  rw [step, update_last hx]

theorem run_textStatements (c : Component) (e : Element) (he : e.content = .none) :
    run (w ++ [⟨(x.name, e), []⟩]) (c.textStatements x) =
      some (w ++ [⟨(x.name, { e with content := c.shownText }), []⟩]) := by
  unfold textStatements shownText
  cases (Descriptor.ofName c.name).bearsText with
  | false =>
    obtain ⟨tag, classes, content, styles, listeners⟩ := e
    obtain rfl : content = .none := he
    rfl
  | true =>
    cases c.arguments with
    | nil => exact run_cons (step_setText hx e "") []
    | cons arg _ =>
      cases arg with
      | text s => exact run_cons (step_setText hx e s) []
      | number n => exact run_cons (step_setText hx e n.text) []
      | reference name => exact run_cons (step_bindText hx e name) []

theorem run_listens (events : List (String × String)) (e : Element) :
    run (w ++ [⟨(x.name, e), []⟩])
        (events.map fun (name, handler) => Statement.listen x name handler) =
      some (w ++ [⟨(x.name, { e with listeners := e.listeners ++ events }), []⟩]) := by
  induction events generalizing e with
  | nil => simp
  | cons event events ih =>
    obtain ⟨name, handler⟩ := event
    rw [List.map_cons, run_cons (step_listen hx e name handler), ih]
    simp

/-- The own statements of a component add its element to the workspace. -/
theorem run_ownStatements (registry : Registry) (c : Component) :
    run w (c.ownStatements registry x) =
      some (w ++ [⟨(x.name, c.element registry), []⟩]) := by
  have hdeclare : step w (.declare x (Descriptor.ofName c.name).tag) =
      some (w ++ [⟨(x.name, .ofTag (Descriptor.ofName c.name).tag), []⟩]) := if_neg hx
  have hstyles : ∀ e : Element, e.styles = (fun _ => none) →
      run (w ++ [⟨(x.name, e), []⟩])
          (if (c.styles registry).isEmpty then [] else [.setStyles x (c.styles registry)]) =
        some (w ++ [⟨(x.name, { e with
          styles := fun key => (c.styleWrites registry).reverse.lookup key }), []⟩]) := by
    intro e he
    have hwritten : assign e.styles (c.styles registry) =
        fun key => (c.styleWrites registry).reverse.lookup key := by
      funext key
      rw [assign_eq_lookup, lookup_reverse_styles, he, Option.or_none]
    cases hempty : (c.styles registry).isEmpty with
    | true =>
      rw [List.isEmpty_iff.mp hempty] at hwritten
      rw [← hwritten]
      rfl
    | false =>
      rw [← hwritten]
      exact run_cons (step_setStyles hx e _) []
  unfold ownStatements
  simp only [List.cons_append, List.nil_append, List.append_assoc]
  rw [run_cons rfl, run_cons hdeclare, run_cons (step_setClass hx _ _),
    run_append (run_textStatements hx c _ rfl), run_append (hstyles _ rfl), run_listens hx]
  simp [element, events_eq, Element.ofTag]

end

/-! ## Statements of trees of components -/

/-- All variables of the workspace have numbers below the bound. -/
def Below (bound : Nat) (w : Workspace) : Prop :=
  ∀ name ∈ namesAll w, ∃ x : Var, x.Plain ∧ x.index < bound ∧ x.name = name

theorem Below.fresh {bound : Nat} {w : Workspace} (h : Below bound w) {x : Var} (hx : x.Plain)
    (hle : bound ≤ x.index) : x.name ∉ namesAll w := by
  intro hmem
  obtain ⟨y, hy, hlt, hname⟩ := h x.name hmem
  have := Var.name_inj hy hx hname
  omega

theorem Below.mono {bound bound' : Nat} {w : Workspace} (h : Below bound w)
    (hle : bound ≤ bound') : Below bound' w := by
  intro name hmem
  obtain ⟨x, hx, hlt, hname⟩ := h name hmem
  exact ⟨x, hx, by omega, hname⟩

theorem Below.append_root {index : Nat} {w : Workspace} (h : Below index w) {x : Var}
    (hx : x.Plain) (hindex : x.index = index) (e : Element) :
    Below (index + 1) (w ++ [⟨(x.name, e), []⟩]) := by
  intro name hmem
  simp only [namesAll_append, namesAll, names, List.append_nil, List.mem_append,
    List.mem_singleton] at hmem
  rcases hmem with hmem | rfl
  · exact (h.mono (Nat.le_succ index)) name hmem
  · exact ⟨x, hx, by omega, rfl⟩

/-- Moving the last tree below the one before it keeps the variables. -/
theorem Below.adopt {bound : Nat} {w : Workspace} {x : String} {e : Element}
    {children : Workspace} {t : ElementTree (String × Element)}
    (h : Below bound (w ++ [⟨(x, e), children⟩] ++ [t])) :
    Below bound (w ++ [⟨(x, e), children ++ [t]⟩]) := by
  intro name hmem
  apply h name
  simpa [namesAll, names, or_assoc] using hmem

/-- The statements of a component: its own, those of the contained components, and an empty line. -/
theorem statements_emit (registry : Registry) (index : Nat) (c : Component) :
    (emit registry index c).1.map Emitted.statement =
      c.ownStatements registry (c.var index) ++
        (emitInto registry c.place (c.var index) (index + 1) c.components).1.map
          Emitted.statement ++ [.blank] := by
  cases c
  simp [emit, Function.comp_def]

mutual
/-- The statements of a component add its tree to a workspace of variables with smaller numbers. -/
theorem run_emit (registry : Registry) : (c : Component) → (index : Nat) → (w : Workspace) →
    Below index w →
    index < (emit registry index c).2 ∧ ∃ t,
      run w ((emit registry index c).1.map Emitted.statement) = some (w ++ [t]) ∧
      t.value.1 = (c.var index).name ∧ t.erase = document registry c ∧
      Below (emit registry index c).2 (w ++ [t])
  | ⟨name, arguments, components, modifiers, place⟩, index, w, hw => by
    let c : Component := ⟨name, arguments, components, modifiers, place⟩
    have hfresh : (c.var index).name ∉ namesAll w := hw.fresh (c.var_plain index) (Nat.le_refl _)
    have hown := run_ownStatements hfresh registry c
    obtain ⟨hle, ts, hrun, herase, hbelow⟩ := run_emitInto registry components place (c.var index)
      (index + 1) w (c.element registry) [] hfresh (c.var_plain index) (Nat.lt_succ_self _)
      (hw.append_root (c.var_plain index) rfl _)
    refine ⟨Nat.lt_of_lt_of_le (Nat.lt_succ_self index) hle,
      ⟨((c.var index).name, c.element registry), ts⟩, ?_, rfl, ?_, hbelow⟩
    · have hbody := (run_append hown _).trans hrun
      rw [statements_emit, run_append hbody]
      rfl
    · rw [erase, document, herase]

/-- The statements of contained components put their trees into the last tree of the workspace, in
order. -/
theorem run_emitInto (registry : Registry) : (cs : List Component) → (place : Place) →
    (x : Var) → (index : Nat) → (w : Workspace) → (e : Element) → (children : Workspace) →
    x.name ∉ namesAll w → x.Plain → x.index < index →
    Below index (w ++ [⟨(x.name, e), children⟩]) →
    index ≤ (emitInto registry place x index cs).2 ∧ ∃ ts,
      run (w ++ [⟨(x.name, e), children⟩])
          ((emitInto registry place x index cs).1.map Emitted.statement) =
        some (w ++ [⟨(x.name, e), children ++ ts⟩]) ∧
      eraseAll ts = documents registry cs ∧
      Below (emitInto registry place x index cs).2 (w ++ [⟨(x.name, e), children ++ ts⟩])
  | [], place, x, index, w, e, children, hx, hplain, hlt, hw => by
    refine ⟨Nat.le_refl _, [], ?_, rfl, ?_⟩ <;> simp [emitInto, hw]
  | c :: cs, place, x, index, w, e, children, hx, hplain, hlt, hw => by
    obtain ⟨hnext, ⟨⟨child, e'⟩, children'⟩, hrun, hname, herase, hbelow⟩ :=
      run_emit registry c index (w ++ [⟨(x.name, e), children⟩]) hw
    have hchild : (c.var index).name ∉ namesAll (w ++ [⟨(x.name, e), children⟩]) :=
      hw.fresh (c.var_plain index) (Nat.le_refl _)
    simp only [namesAll_append, namesAll, names, List.append_nil, List.mem_append, List.mem_cons,
      not_or] at hchild
    subst hname
    have hadopt : step (w ++ [⟨(x.name, e), children⟩] ++ [⟨((c.var index).name, e'), children'⟩])
        (.append x (c.var index)) =
          some (w ++ [⟨(x.name, e), children ++ [⟨((c.var index).name, e'), children'⟩]⟩]) := by
      rw [step, List.append_assoc]
      exact adopt_last hx hchild.1 (Ne.symm hchild.2.1) e e' children children'
    obtain ⟨hle, ts, hrest, herest, hbrest⟩ := run_emitInto registry cs place x
      (emit registry index c).2 w e (children ++ [⟨((c.var index).name, e'), children'⟩]) hx hplain
      (by omega) hbelow.adopt
    refine ⟨?_, ⟨((c.var index).name, e'), children'⟩ :: ts, ?_, ?_, ?_⟩
    · simp only [emitInto]
      omega
    · simp only [emitInto, List.map_append, List.map_cons]
      rw [run_append hrun, run_cons hadopt, hrest]
      simp
    · rw [eraseAll, documents, herase, herest]
    · simpa [emitInto] using hbrest
end

/-- The statements of a row of components add their trees to the workspace, in order. -/
theorem run_emitAll (registry : Registry) (cs : List Component) (index : Nat) (w : Workspace)
    (hw : Below index w) :
    ∃ ts, run w ((emitAll registry index cs).map Emitted.statement) = some (w ++ ts) ∧
      eraseAll ts = documents registry cs := by
  induction cs generalizing index w with
  | nil => exact ⟨[], by simp [emitAll], rfl⟩
  | cons c cs ih =>
    obtain ⟨-, t, hrun, -, herase, hbelow⟩ := run_emit registry c index w hw
    obtain ⟨ts, hrest, herest⟩ := ih _ (w ++ [t]) hbelow
    refine ⟨t :: ts, ?_, by rw [eraseAll, documents, herase, herest]⟩
    simp only [emitAll, List.map_append]
    rw [run_append hrun, hrest]
    simp

end Component

/-- The lines of a module are its import lines and the lines of statements. -/
theorem fst_moduleLines (keyword : String) (registry : Registry) (nodes : List Component) :
    (moduleLines keyword registry nodes).map Prod.fst = importLines.map Prod.fst ++
      ((Component.emitAll registry 1 nodes).map Emitted.statement).flatMap
        (Statement.lines keyword) := by
  simp only [moduleLines, List.map_append, List.map_flatMap, Emitted.lines, List.map_map,
    List.flatMap_map]
  simp [Function.comp_def]

/-- **Code generation preserves meaning.** The code of a module, before masking, is its import lines
and the rendering of a row of statements, which execute without being stuck and leave exactly the
documents of the components, in order. -/
theorem generated_statements_build_documents (options : BuildOptions) (registry : Registry)
    (nodes : List Component) :
    ∃ statements : List Statement,
      (generate options registry nodes).code =
        maskUndefined ("\n".intercalate
          (importLines.map Prod.fst ++ statements.flatMap (Statement.lines options.keyword))) ∧
      ∃ w, Dom.run [] statements = some w ∧
        Dom.ElementTree.eraseAll w = Component.documents registry nodes := by
  obtain ⟨w, hrun, herase⟩ := Component.run_emitAll registry nodes 1 []
    (by intro name hmem; simp [Dom.ElementTree.namesAll] at hmem)
  refine ⟨(Component.emitAll registry 1 nodes).map Emitted.statement, ?_, w, hrun, herase⟩
  simp only [generate, moduleLines, List.map_append, List.map_flatMap, Emitted.lines, List.map_map,
    List.flatMap_map]
  simp [Function.comp_def]

end UiMarkup
