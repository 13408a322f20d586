import Mathlib.Data.List.Induction
import Mathlib.Data.List.Nodup
import UiMarkup.Proofs.Numbering

/-!
# Batches of styles

The styles of a component are written one after the other, the gap first and then those of its
modifiers, and set in one batch. A key stands in the batch where it was first written, with the
value that was written last. The listeners follow, one for each event of the modifiers. Modifiers
without effects leave no trace.

* `Styles.Batches writes batch`: the batch that comes of the writes.
* `batches_ofWrites`: writing properties one after the other makes it.
* `ownStatements_split`: the own statements of a component, with its batch between what opens it and
  its listeners.
* `emit_trim`: modifiers without effects do not matter.
* `styles_set_in_one_batch`: the main statement.
-/

namespace UiMarkup

/-! ## Writing one after the other -/

namespace Styles

/-- The pair is a write, and no later one has its key. -/
def LastWrite (writes : List (String × String)) (pair : String × String) : Prop :=
  ∃ earlier later, writes = earlier ++ pair :: later ∧ pair.1 ∉ later.map Prod.fst

/-- The batch that comes of the writes: each key that was written once, in the order of their first
writes, with the value of its last write. -/
structure Batches (writes : List (String × String)) (batch : Styles) : Prop where
  keys : batch.map Prod.fst = (writes.map Prod.fst).eraseDups
  nodup : (batch.map Prod.fst).Nodup
  last : ∀ pair ∈ batch, LastWrite writes pair

/-- The styles after several writes. -/
def ofWrites (writes : List (String × String)) : Styles :=
  writes.foldl (fun styles (key, value) => styles.write key value) []

theorem ofWrites_concat (writes : List (String × String)) (key value : String) :
    ofWrites (writes ++ [(key, value)]) = (ofWrites writes).write key value := by
  simp [ofWrites]

/-- A write adds its key, unless it is there. -/
theorem keys_write (styles : Styles) (key value : String) :
    (styles.write key value).map Prod.fst =
      if key ∈ styles.map Prod.fst then styles.map Prod.fst
      else styles.map Prod.fst ++ [key] := by
  have hany : styles.any (·.1 == key) = true ↔ key ∈ styles.map Prod.fst := by
    simp only [List.any_eq_true, beq_iff_eq, List.mem_map]
  unfold write
  by_cases h : key ∈ styles.map Prod.fst
  · rw [if_pos (hany.mpr h), if_pos h, List.map_map]
    refine List.map_congr_left fun pair _ => ?_
    simp only [Function.comp_apply]
    split <;> rfl
  · rw [if_neg (mt hany.mp h), if_neg h, List.map_append]
    rfl

/-- The pairs after a write are the one that was written and those with other keys. -/
theorem mem_write {styles : Styles} {key value : String} {pair : String × String}
    (h : pair ∈ styles.write key value) : pair = (key, value) ∨ pair ∈ styles ∧ pair.1 ≠ key := by
  unfold write at h
  split at h
  · obtain ⟨⟨k, v⟩, hmem, rfl⟩ := List.mem_map.mp h
    by_cases hk : k = key
    · exact .inl (by simp [hk])
    · exact .inr ⟨by simpa [hk] using hmem, by simp [hk]⟩
  · next hany =>
    rcases List.mem_append.mp h with hmem | hmem
    · refine .inr ⟨hmem, fun hk => hany ?_⟩
      exact List.any_eq_true.mpr ⟨pair, hmem, by simp [hk]⟩
    · exact .inl (List.mem_singleton.mp hmem)

theorem eraseDups_concat (keys : List String) (key : String) :
    (keys ++ [key]).eraseDups =
      if key ∈ keys.eraseDups then keys.eraseDups else keys.eraseDups ++ [key] := by
  rw [List.eraseDups_append, List.removeAll]
  by_cases h : key ∈ keys
  · simp [h, List.mem_eraseDups]
  · simp [h, List.mem_eraseDups, List.eraseDups_cons]

/-- One more write makes the batch of one more write. -/
theorem Batches.write {writes : List (String × String)} {batch : Styles} (h : Batches writes batch)
    (key value : String) : Batches (writes ++ [(key, value)]) (batch.write key value) where
  keys := by
    rw [keys_write, h.keys, List.map_append, List.map_singleton, eraseDups_concat]
  nodup := by
    rw [keys_write]
    split
    · exact h.nodup
    · next hkey => exact List.nodup_append.mpr ⟨h.nodup, List.nodup_singleton key, by
        rintro a ha b hb rfl
        exact hkey (List.mem_singleton.mp hb ▸ ha)⟩
  last := by
    intro pair hpair
    rcases mem_write hpair with rfl | ⟨hmem, hne⟩
    · exact ⟨writes, [], rfl, by simp⟩
    · obtain ⟨earlier, later, rfl, hlater⟩ := h.last pair hmem
      refine ⟨earlier, later ++ [(key, value)], by simp, ?_⟩
      simp only [List.map_append, List.map_singleton, List.mem_append, List.mem_singleton, not_or]
      exact ⟨hlater, hne⟩

/-- Writing properties one after the other makes their batch. -/
theorem batches_ofWrites (writes : List (String × String)) : Batches writes (ofWrites writes) := by
  induction writes using List.reverseRecOn with
  | nil => exact ⟨rfl, List.nodup_nil, by simp [ofWrites]⟩
  | append_singleton writes pair ih =>
    rw [ofWrites_concat]
    exact ih.write pair.1 pair.2

theorem Batches.eq_nil_iff {writes : List (String × String)} {batch : Styles}
    (h : Batches writes batch) : batch = [] ↔ writes = [] := by
  have hkeys := h.keys
  cases writes with
  | nil => simpa using hkeys
  | cons pair writes =>
    rw [List.map_cons, List.eraseDups_cons] at hkeys
    simp only [reduceCtorEq, iff_false]
    rintro rfl
    cases hkeys

end Styles

/-! ## The own statements of a component -/

namespace Component

open Statement

theorem styles_eq (registry : Registry) (c : Component) :
    c.styles registry = Styles.ofWrites (c.styleWrites registry) := by
  have hgap : Styles.ofWrites c.gapWrites = c.gapWrites := by
    unfold gapWrites
    split
    · split <;> rfl
    · rfl
  rw [Styles.ofWrites] at hgap
  rw [styles, gap?_toList, Styles.ofWrites, styleWrites, List.foldl_append, hgap,
    List.foldl_filterMap]
  congr 1
  funext styles effect
  cases effect <;> rfl

/-- The statements that come before the styles: those that make the element, and its text. -/
def openingStatements (c : Component) (x : Var) : List Statement :=
  [.comment c.name, .declare x (Descriptor.ofName c.name).tag,
    .setClass x (Descriptor.ofName c.name).classes] ++ c.textStatements x

/-- The statement neither sets styles nor listens. -/
def Opens (s : Statement) : Prop :=
  (∀ x styles, s ≠ .setStyles x styles) ∧ ∀ x event handler, s ≠ .listen x event handler

theorem opens_openingStatements (c : Component) (x : Var) : ∀ s ∈ c.openingStatements x, Opens s := by
  have htext : ∀ s ∈ c.textStatements x, Opens s := by
    unfold textStatements
    split
    · split <;> simp [Opens]
    · simp
  exact List.forall_mem_append.mpr ⟨by simp [Opens], htext⟩

/-- The own statements of a component set its styles in one batch, if there are any, and then listen
to its events. -/
theorem ownStatements_split (registry : Registry) (c : Component) (x : Var) :
    c.ownStatements registry x = c.openingStatements x ++
      (if c.styleWrites registry = [] then [] else [.setStyles x (c.styles registry)]) ++
      ((c.effects registry).filterMap Effect.event?).map fun (event, handler) =>
        .listen x event handler := by
  have hbatch := Styles.batches_ofWrites (c.styleWrites registry)
  rw [ownStatements, openingStatements, ← events_eq]
  simp only [styles_eq, List.isEmpty_iff, hbatch.eq_nil_iff]

/-- If there is a gap, it is the first key of the batch. -/
theorem head?_keys_of_gap {registry : Registry} {c : Component} {batch : Styles}
    (h : Styles.Batches (c.styleWrites registry) batch) (hgap : c.gap?.isSome) :
    (batch.map Prod.fst).head? = some "gap" := by
  obtain ⟨value, hvalue⟩ := Option.isSome_iff_exists.mp hgap
  have hwrites := c.gap?_toList
  rw [hvalue] at hwrites
  rw [h.keys, styleWrites, ← hwrites]
  simp [List.eraseDups_cons]

/-- The own statements of each component stand among those of a forest. -/
theorem ownStatements_infix (registry : Registry) {cs : List Component} {k : Nat} {c : Component}
    (h : (cs.flatMap preorder)[k]? = some c) (index : Nat) :
    c.ownStatements registry (c.var (index + k)) <:+: allStatements registry index cs := by
  obtain ⟨earlier, later, hsplit, -⟩ := emitsAt_of_getElem? registry h index
  rw [hsplit, statements_eq, List.append_assoc (c.ownStatements registry _),
    ← List.append_assoc earlier, List.append_assoc _ _ later]
  exact List.infix_append _ _ _

/-! ## Modifiers without effects -/

/-- The component and all below it, without the modifiers that have no effects. -/
def trim (registry : Registry) : Component → Component
  | ⟨name, arguments, components, modifiers, place⟩ =>
    ⟨name, arguments, components.map (trim registry),
      modifiers.filter fun m => !(registry.effects m).isEmpty, place⟩

theorem trim_eq (registry : Registry) (c : Component) :
    c.trim registry = ⟨c.name, c.arguments, c.components.map (trim registry),
      c.modifiers.filter fun m => !(registry.effects m).isEmpty, c.place⟩ := by
  cases c
  rw [trim]

@[simp] theorem var_trim (registry : Registry) (c : Component) (index : Nat) :
    (c.trim registry).var index = c.var index := by
  rw [trim_eq]
  rfl

@[simp] theorem place_trim (registry : Registry) (c : Component) :
    (c.trim registry).place = c.place := by
  rw [trim_eq]

@[simp] theorem components_trim (registry : Registry) (c : Component) :
    (c.trim registry).components = c.components.map (trim registry) := by
  rw [trim_eq]

theorem effects_filter (registry : Registry) (modifiers : List Modifier) :
    (modifiers.filter fun m => !(registry.effects m).isEmpty).flatMap registry.effects =
      modifiers.flatMap registry.effects := by
  induction modifiers with
  | nil => rfl
  | cons m modifiers ih =>
    rw [List.flatMap_cons, List.filter_cons]
    cases h : registry.effects m with
    | nil => simp [ih]
    | cons effect effects => simp [ih, h]

/-- The own statements of a component depend on its name, its arguments and the effects of its
modifiers. -/
theorem ownStatements_congr {registry : Registry} {c c' : Component} (hname : c.name = c'.name)
    (harguments : c.arguments = c'.arguments)
    (heffects : c.effects registry = c'.effects registry) (x : Var) :
    c.ownStatements registry x = c'.ownStatements registry x := by
  cases c
  cases c'
  subst hname harguments
  rw [ownStatements, ownStatements, styles, styles, events, events, heffects]
  rfl

theorem ownStatements_trim (registry : Registry) (c : Component) (x : Var) :
    (c.trim registry).ownStatements registry x = c.ownStatements registry x := by
  have heffects : (c.trim registry).effects registry = c.effects registry := by
    rw [trim_eq]
    exact effects_filter registry c.modifiers
  refine ownStatements_congr ?_ ?_ heffects x <;> rw [trim_eq]

mutual
/-- Modifiers without effects do not matter to what is emitted. -/
theorem emit_trim (registry : Registry) : (c : Component) → (index : Nat) →
    emit registry index (c.trim registry) = emit registry index c
  | ⟨name, arguments, components, modifiers, place⟩, index => by
    apply Prod.ext
    · simp only [emit_fst, ownStatements_trim, var_trim, place_trim, components_trim,
        emitInto_trim registry components]
    · simp only [emit_snd, var_trim, place_trim, components_trim,
        emitInto_trim registry components]

theorem emitInto_trim (registry : Registry) : (cs : List Component) → (place : Place) →
    (x : Var) → (index : Nat) →
    emitInto registry place x index (cs.map (trim registry)) = emitInto registry place x index cs
  | [], place, x, index => rfl
  | c :: cs, place, x, index => by
    simp only [List.map_cons, emitInto, emit_trim registry c, var_trim,
      emitInto_trim registry cs]
end

theorem emitAll_trim (registry : Registry) (cs : List Component) (index : Nat) :
    emitAll registry index (cs.map (trim registry)) = emitAll registry index cs := by
  induction cs generalizing index with
  | nil => rfl
  | cons c cs ih => simp only [List.map_cons, emitAll, emit_trim, ih]

theorem generate_trim (options : BuildOptions) (registry : Registry) (nodes : List Component) :
    generate options registry (nodes.map (trim registry)) = generate options registry nodes := by
  simp only [generate, moduleLines, emitAll_trim]

end Component

open Component in
/-- **A batch of styles is an ordered map in which the last write wins.** The generated code
consists of its import lines and the lines of statements, among which stand the own statements of
each component. Their middle is one batch of styles, if there are writes at all: each key once, in
the order of the first writes, with the value of the last one; a gap is the first key. No other own
statement sets styles. The listeners follow, one for each event effect, in the order of the
modifiers. Removing modifiers without effects, some or all, leaves the module as it is. -/
theorem styles_set_in_one_batch (options : BuildOptions) (registry : Registry)
    (nodes : List Component) :
    let statements := (emitAll registry 1 nodes).map Emitted.statement
    (generate options registry nodes).code =
        maskUndefined ("\n".intercalate
          (importLines.map Prod.fst ++ statements.flatMap (Statement.lines options.keyword))) ∧
      (∀ (k : Nat) (c : Component), (nodes.flatMap preorder)[k]? = some c →
        let x := c.var (k + 1)
        let writes := c.styleWrites registry
        c.ownStatements registry x <:+: statements ∧
        ∃ opening batch,
          c.ownStatements registry x =
            opening ++ (if writes = [] then [] else [.setStyles x batch]) ++
              ((c.effects registry).filterMap Effect.event?).map (fun (event, handler) =>
                .listen x event handler) ∧
          (∀ s ∈ opening, Opens s) ∧ Styles.Batches writes batch ∧
          (c.gap?.isSome → (batch.map Prod.fst).head? = some "gap")) ∧
      generate options registry (nodes.map (trim registry)) = generate options registry nodes ∧
      ∀ nodes', nodes'.map (trim registry) = nodes.map (trim registry) →
        generate options registry nodes' = generate options registry nodes := by
  intro statements
  refine ⟨by rw [generate, fst_moduleLines], fun k c hk => ?_, generate_trim options registry nodes,
    fun nodes' h => ?_⟩
  · have hown := ownStatements_infix registry hk 1
    have hbatch := Styles.batches_ofWrites (c.styleWrites registry)
    rw [Nat.add_comm] at hown
    refine ⟨hown, c.openingStatements _, c.styles registry, ownStatements_split registry c _,
      opens_openingStatements c _, ?_, fun hgap => ?_⟩
    · rw [styles_eq]
      exact hbatch
    · rw [styles_eq]
      exact head?_keys_of_gap hbatch hgap
  · rw [← generate_trim options registry nodes', h, generate_trim]

/-- A stack with a gap and a padding that is written twice, and with a click handler that is no
reference and has no effect. -/
def paddedStack : Component :=
  ⟨"VStack", [.number (.int 8)], [],
    [⟨"padding", [.text "4px"]⟩, ⟨"onTapGesture", [.text "go"]⟩, ⟨"padding", [.text "2px"]⟩], ⟨1, 1⟩⟩

/-- The padded stack without its click handler. -/
def trimmedStack : Component :=
  { paddedStack with modifiers := [⟨"padding", [.text "4px"]⟩, ⟨"padding", [.text "2px"]⟩] }

open Component in
theorem styles_set_in_one_batch_padded :
    ([paddedStack].flatMap preorder)[0]? = some paddedStack ∧ paddedStack.gap?.isSome ∧
      [trimmedStack].map (trim .builtIn) = [paddedStack].map (trim .builtIn) ∧
      (∃ batch, Styles.Batches (paddedStack.styleWrites .builtIn) batch ∧
        (batch.map Prod.fst).head? = some "gap") ∧
      generate {} .builtIn [trimmedStack] = generate {} .builtIn [paddedStack] := by
  have hstack : ([paddedStack].flatMap preorder)[0]? = some paddedStack := by
    rw [List.flatMap_singleton, preorder_eq, List.getElem?_cons_zero]
  have htrim : [trimmedStack].map (trim .builtIn) = [paddedStack].map (trim .builtIn) := by
    rw [List.map_singleton, List.map_singleton, trim_eq, trim_eq]
    rfl
  obtain ⟨-, hown, -, hsame⟩ := styles_set_in_one_batch {} .builtIn [paddedStack]
  obtain ⟨-, opening, batch, -, -, hbatch, hgap⟩ := hown 0 paddedStack hstack
  exact ⟨hstack, rfl, htrim, ⟨batch, hbatch, hgap rfl⟩, hsame [trimmedStack] htrim⟩

end UiMarkup
