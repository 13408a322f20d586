import UiMarkup.Proofs.Mappings
import UiMarkup.Proofs.Masking
import UiMarkup.Proofs.NameTokens
import UiMarkup.Proofs.Ownership

/-!
# Source maps lead to the names of components

A source is read and its module is generated with a source map. Each line of the code has a group in
the mappings, and the groups lead each line of a component to the place of its name in the source.

* `legible_of_names`: what was read from a source can stand in lines of code.
* `source_map_leads_to_names`: the main statement.
-/

namespace UiMarkup

namespace Text

theorem singleLine_intercalate {sep : String} {pieces : List String} (hsep : SingleLine sep)
    (h : ∀ piece ∈ pieces, SingleLine piece) : SingleLine (sep.intercalate pieces) := by
  induction pieces with
  | nil => simp [SingleLine]
  | cons piece pieces ih =>
    obtain ⟨hpiece, hpieces⟩ := List.forall_mem_cons.mp h
    cases pieces with
    | nil => simpa using hpiece
    | cons next pieces =>
      rw [String.intercalate_cons_cons, singleLine_append, singleLine_append]
      exact ⟨⟨hpiece, hsep⟩, ih hpieces⟩

end Text

namespace Grammar

/-! ## What is read can stand in a line -/

/-- The identifiers among the tokens are in ASCII and hold no line end. -/
def Identifiers (ts : List Token) : Prop :=
  ∀ t ∈ ts, t.kind = .identifier → ∀ c ∈ t.text.toList, c.toNat < 0x80 ∧ c ≠ '\n'

theorem Identifiers.singleLine {ts : List Token} (h : Identifiers ts) {t : Token} (ht : t ∈ ts)
    (hk : t.kind = .identifier) : Text.SingleLine t.text :=
  fun hmem => (h t ht hk _ hmem).2 rfl

theorem Identifiers.of_infix {ts ts' : List Token} (h : Identifiers ts) (hts : ts' <:+: ts) :
    Identifiers ts' :=
  fun t ht => h t (hts.subset ht)

theorem singleLine_dotted {ts : List Token} {names : List String} (h : Dotted ts names)
    (hts : Identifiers ts) : ∀ name ∈ names, Text.SingleLine name := by
  induction h with
  | nil => simp
  | cons hd hn h ih =>
    have hrest := ih fun t ht => hts t (by simp [ht])
    exact List.forall_mem_cons.mpr ⟨hts.singleLine (by simp) hn, hrest⟩

theorem legible_argument {p : Profile} {ts : List Token} {e : Expr} (h : Argument p ts e)
    (hts : Identifiers ts) : e.Legible := by
  cases h with
  | text | number | negative => trivial
  | reference hk hd hp =>
    apply Text.singleLine_intercalate (by decide)
    refine List.forall_mem_cons.mpr ⟨hts.singleLine (by simp) hk, ?_⟩
    exact singleLine_dotted hd fun t ht => hts t (by simp [ht])

theorem legible_arguments {p : Profile} {ts : List Token} {es : List Expr} (h : Arguments p ts es)
    (hts : Identifiers ts) : ∀ e ∈ es, e.Legible := by
  induction h with
  | last h => simpa using legible_argument h hts
  | trailing h hc => simpa using legible_argument h fun t ht => hts t (by simp [ht])
  | more h hc _ ih =>
    refine List.forall_mem_cons.mpr ⟨legible_argument h fun t ht => hts t (by simp [ht]), ?_⟩
    exact ih fun t ht => hts t (by simp [ht])

theorem legible_argumentList {p : Profile} {ts : List Token} {es : List Expr}
    (h : ArgumentList p ts es) (hts : Identifiers ts) : ∀ e ∈ es, e.Legible := by
  cases h with
  | empty => simp
  | full hl h hr => exact legible_arguments h fun t ht => hts t (by simp [ht])

theorem legible_modifiers {p : Profile} {ts : List Token} {ms : List Modifier}
    (h : Modifiers p ts ms) (hts : Identifiers ts) :
    ∀ m ∈ ms, ∀ e ∈ m.arguments, e.Legible := by
  induction h with
  | nil => simp
  | cons hd hn ha h ih =>
    refine List.forall_mem_cons.mpr ⟨legible_argumentList ha fun t ht => hts t (by simp [ht]), ?_⟩
    exact ih fun t ht => hts t (by simp [ht])

theorem legible_component {p : Profile} {locate : Nat → Place} {ts : List Token}
    {c : UiMarkup.Component} {isSealed : Bool} (h : Component p locate ts c isSealed)
    (hts : Identifiers ts) : c.Legible := by
  cases h with
  | call hn ha hb hsome hm =>
    refine ⟨hts _ (by simp) hn, ?_, legible_modifiers hm fun t ht => hts t (by simp [ht])⟩
    cases ha with
    | absent => simp
    | present ha => exact legible_argumentList ha fun t ht => hts t (by simp [ht])

end Grammar

/-- A component that was read from a source can stand in lines of code. -/
theorem legible_of_names {p : Profile} {locate : Nat → Place} {source : String} {c : Component}
    {t : Token} (h : Grammar.Names p locate (tokenize p source) c t) : c.Legible := by
  obtain ⟨used, isSealed, hinfix, hc⟩ := h
  have hids : Grammar.Identifiers (tokenize p source) := fun t ht hk x hx =>
    Profile.ascii_of_continuesIdentifier (Token.continuesIdentifier_of_mem ht hk x hx)
  exact Grammar.legible_component hc (hids.of_infix hinfix)

/-! ## The lines of a module -/

/-- The lines of statements, with a value for each of them. -/
theorem snd_moduleLines (keyword : String) (registry : Registry) (nodes : List Component) :
    (moduleLines keyword registry nodes).map Prod.snd = importLines.map Prod.snd ++
      (((Component.emitAll registry 1 nodes).map Emitted.statement).zip
        ((Component.emitAll registry 1 nodes).map Emitted.origin)).flatMap fun (s, origin) =>
          (s.lines keyword).map fun _ => origin := by
  rw [List.zip_map', List.flatMap_map]
  simp [moduleLines, List.map_flatMap, Emitted.lines, Function.comp_def]

theorem singleLine_keyword (options : BuildOptions) : Text.SingleLine options.keyword := by
  unfold BuildOptions.keyword
  split <;> decide

/-- The lines of a module of legible components are single lines. -/
theorem singleLine_moduleLines {keyword : String} (hk : Text.SingleLine keyword)
    {nodes : List Component} (h : ∀ c ∈ nodes.flatMap Component.preorder, c.Legible) :
    ∀ line ∈ (moduleLines keyword .builtIn nodes).map Prod.fst, Text.SingleLine line := by
  rw [fst_moduleLines]
  simp only [List.forall_mem_append, List.forall_mem_flatMap, List.forall_mem_map]
  refine ⟨by decide, fun e he => ?_⟩
  cases Component.stemsFrom_emitAll .builtIn nodes 1 e he with
  | own hc index hs => exact (Component.legible_ownStatements (h _ hc) index _ hs).lines hk
  | append hc index child index' =>
    apply Statement.Legible.lines _ hk
    simp [Statement.Legible, Statement.texts]
  | blank => simp [Statement.lines, Text.SingleLine]

/-- The lines of a module that are not mapped are the three imports and the empty ones. -/
theorem origin_moduleLines {keyword : String} {registry : Registry} {nodes : List Component}
    {i : Nat} {line : String} {origin : Option Place}
    (h : (moduleLines keyword registry nodes)[i]? = some (line, origin)) :
    origin = none ↔ i < 3 ∨ line = "" := by
  by_cases hi : i < importLines.length
  · rw [moduleLines, List.getElem?_append_left hi] at h
    have himports : ∀ i < 4, importLines[i]?.all fun e =>
        e.2 = none ∧ (i < 3 ∨ e.1 = "") := by
      decide
    have hentry := himports i hi
    rw [h, Option.all_some, decide_eq_true_eq] at hentry
    exact ⟨fun _ => hentry.2, fun _ => hentry.1⟩
  · rw [moduleLines, List.getElem?_append_right (by omega)] at h
    obtain ⟨e, he, hline⟩ := List.mem_flatMap.mp (List.mem_of_getElem? h)
    obtain ⟨line, hmem, ⟨⟩⟩ := List.mem_map.mp hline
    have hlt : ¬ i < 3 := fun hlt => hi (Nat.lt_trans hlt (by decide))
    simp only [hlt, false_or]
    cases Component.stemsFrom_emitAll registry nodes 1 e he with
    | own hc index hs =>
      have hne := Component.ne_blank_of_mem_ownStatements hs
      simp [Statement.line_ne_empty hne keyword line hmem]
    | append hc index child index' =>
      simp [Statement.line_ne_empty (by simp) keyword line hmem]
    | blank => simpa [Statement.lines] using hmem

/-! ## From names to mappings -/

/-- Components with names are at home where their names are. -/
theorem homes_of_names {p : Profile} {locate : Nat → Place} {ts : List Token}
    {cs : List Component} {names : List Token}
    (h : List.Forall₂ (Grammar.Names p locate ts) cs names) :
    Component.Homes (fun k => names[k - 1]?.map fun t => locate t.position) 1 cs := by
  intro i c hc
  have hlt : i < names.length := h.length_eq ▸ (List.getElem?_eq_some_iff.mp hc).1
  have hnames := h.get (List.getElem?_eq_some_iff.mp hc).1 hlt
  obtain ⟨_, rfl⟩ := List.getElem?_eq_some_iff.mp hc
  simp only [Nat.add_sub_cancel_left, List.getElem?_eq_getElem hlt, Option.map_some]
  exact congrArg some hnames.token.2.2.2.symm

/-- A source that yields components was surveyed to its end. -/
theorem nodes_of_parse {source filename : String} {forest : Forest}
    (h : parse source filename = .ok forest) (hne : forest.nodes ≠ []) :
    forest.nodes = (Survey.ofSource (.ofFilename filename) source).nodes := by
  unfold parse Survey.forest at h
  split at h
  · rw [← Except.ok.inj h]
  · exact absurd (by rw [← Except.ok.inj h]) hne
  · cases h

/-- Where the lines of statements lead, if the component with the number `k` leads to `spot k`. -/
def Statement.targets (keyword : String) (spot : Nat → Option (Int × Int))
    (statements : List Statement) : List (Option (Int × Int)) :=
  (statements.zip (owners 1 statements)).flatMap fun (s, owner) =>
    (s.lines keyword).map fun _ => owner.bind spot

/-- The places of the lines of a module, by the owners of its statements. -/
theorem zeroBased_moduleLines (keyword : String) (registry : Registry) {nodes : List Component}
    {home : Nat → Option Place}
    (h : Component.Homes home 1 (nodes.flatMap Component.preorder)) :
    ((moduleLines keyword registry nodes).map Prod.snd).map (Option.map Place.zeroBased) =
      importLines.map (fun _ => none) ++
        Statement.targets keyword (fun k => (home k).map Place.zeroBased)
          ((Component.emitAll registry 1 nodes).map Emitted.statement) := by
  rw [snd_moduleLines, Component.origins_emitAll registry nodes 1 h, List.zip_map_right,
    List.map_append, List.flatMap_map, List.map_flatMap, Statement.targets]
  congr 1
  congr 1
  funext ⟨s, owner⟩
  simp only [List.map_map]
  congr 1
  funext line
  cases owner <;> rfl

/-- A group is empty for an import or an empty line, and otherwise holds two zeros and the
differences in line and column. -/
theorem groups_moduleLines {keyword : String} {registry : Registry} {nodes : List Component}
    {i : Nat} {group line : List Char}
    (hgroup : (SourceMap.groupsFrom .start
      ((moduleLines keyword registry nodes).map Prod.snd))[i]? = some group)
    (hline : (((moduleLines keyword registry nodes).map Prod.fst).map
      fun line => maskChars line.toList)[i]? = some line) :
    (group = [] ↔ i < 3 ∨ line = []) ∧
      (group ≠ [] → ∃ l c, Vlq.decode (String.ofList group) = .ok [0, 0, l, c]) := by
  simp only [List.getElem?_map, Option.map_eq_some_iff] at hline
  obtain ⟨text, ⟨⟨text', origin⟩, hentry, rfl⟩, rfl⟩ := hline
  have horigin := origin_moduleLines hentry
  have hsnd : ((moduleLines keyword registry nodes).map Prod.snd)[i]? = some origin := by
    rw [List.getElem?_map, hentry]
    rfl
  obtain ⟨hg, rfl⟩ := List.getElem?_eq_some_iff.mp hgroup
  obtain ⟨ho, rfl⟩ := List.getElem?_eq_some_iff.mp hsnd
  obtain ⟨hempty, hdecode⟩ := (SourceMap.forall₂_groupsFrom .start _).get hg ho
  refine ⟨?_, hdecode⟩
  have hnil : maskChars text'.toList = [] ↔ text' = "" := by
    rw [maskChars_eq_nil_iff, String.toList_eq_nil_iff]
  rw [hnil, ← horigin]
  exact hempty

/-- **Source maps are right end to end.** The components of a source, in preorder, have the names
`names`, which stand in the source in this order. The generated code declares one variable for each
of them, numbered from one, and its lines are those of its statements. There is one group of the
mappings for each line, empty for the three imports and the empty lines, and the groups lead each
line of a component to the line and column of its name. -/
theorem source_map_leads_to_names (source filename : String) (options : BuildOptions)
    (forest : Forest) (hparse : parse source filename = .ok forest) (hne : forest.nodes ≠ [])
    (hmaps : options.sourceMaps = true) :
    let generated := generate options .builtIn forest.nodes
    let statements := (Component.emitAll .builtIn 1 forest.nodes).map Emitted.statement
    let components := forest.nodes.flatMap Component.preorder
    let tokens := tokenize (.ofFilename filename) source
    ∃ map names,
      generated.map = some map ∧
      Grammar.NamesInOrder (.ofFilename filename) (Place.ofOffset source.toList) tokens components
        names ∧
      (∀ t ∈ names, t.text.toList <+: source.toList.drop t.position) ∧
      statements.filterMap Statement.declared? = Component.vars 1 components ∧
      let lines := generated.code.toList.splitOn '\n'
      let groups := map.mappings.toList.splitOn ';'
      lines = (importLines.map Prod.fst ++
        statements.flatMap (Statement.lines options.keyword)).map (fun line =>
          maskChars line.toList) ∧
      groups.length = lines.length ∧
      (∀ i group line, groups[i]? = some group → lines[i]? = some line →
        (group = [] ↔ i < 3 ∨ line = []) ∧
        (group ≠ [] → ∃ l c, Vlq.decode (String.ofList group) = .ok [0, 0, l, c])) ∧
      SourceMap.traceFrom 0 0 groups = some (importLines.map (fun _ => none) ++
        Statement.targets options.keyword (fun k =>
          names[k - 1]?.map fun t => Place.lineColumn (source.toList.take t.position))
          statements) := by
  intro generated statements components tokens
  obtain ⟨names, hnames⟩ := Parser.exists_names_of_survey
    (.ofSource (.ofFilename filename) source) 0 none tokens
  have hnodes : (Parser.survey (.ofSource (.ofFilename filename) source) 0 none tokens).nodes =
      forest.nodes := (nodes_of_parse hparse hne).symm
  rw [hnodes] at hnames
  have hlines : generated.code.toList.splitOn '\n' =
      ((moduleLines options.keyword .builtIn forest.nodes).map Prod.fst).map
        (fun line => maskChars line.toList) := by
    apply splitOn_maskUndefined
    · simp [moduleLines, importLines]
    · apply singleLine_moduleLines (singleLine_keyword options)
      intro c hc
      obtain ⟨i, hi, rfl⟩ := List.getElem_of_mem hc
      exact legible_of_names (hnames.2.get hi (hnames.2.length_eq ▸ hi))
  have hgroups : (SourceMap.mappingsOf
      ((moduleLines options.keyword .builtIn forest.nodes).map Prod.snd)).toList.splitOn ';' =
      SourceMap.groupsFrom .start
        ((moduleLines options.keyword .builtIn forest.nodes).map Prod.snd) := by
    apply SourceMap.splitOn_mappingsOf
    simp [moduleLines, importLines]
  refine ⟨_, names, if_pos hmaps, hnames, ?_,
    Component.declared_emitAll .builtIn forest.nodes 1, ?_⟩
  · intro t ht
    obtain ⟨i, hi, rfl⟩ := List.getElem_of_mem ht
    have hkind := (hnames.2.get (hnames.2.length_eq ▸ hi) hi).token.2.1
    exact Token.text_prefix_drop (hnames.1.subset ht) (fun h => by cases hkind.symm.trans h)
  simp only [SourceMap.build, hlines, hgroups]
  refine ⟨by rw [fst_moduleLines], ?_, fun i group line => groups_moduleLines, ?_⟩
  · rw [(SourceMap.forall₂_groupsFrom _ _).length_eq]
    simp
  · have htrace := SourceMap.traceFrom_groupsFrom .start
      ((moduleLines options.keyword .builtIn forest.nodes).map Prod.snd)
    have hspot : (fun k => (names[k - 1]?.map fun t =>
        Place.ofOffset source.toList t.position).map Place.zeroBased) = fun k =>
        names[k - 1]?.map fun t => Place.lineColumn (source.toList.take t.position) := by
      funext k
      simp [Function.comp_def, Place.zeroBased_ofOffset]
    rw [zeroBased_moduleLines _ _ (homes_of_names hnames.2)] at htrace
    rw [← hspot]
    exact htrace

/-- A stack of a text and a button. -/
def stackSource : String :=
  "VStack(8) \x7b\n  Text(\"a\")\n  Button(label).onTapGesture(go)\n\x7d"

/-- What the source of the stack is read as. -/
def stackForest : Forest :=
  ⟨[⟨"VStack", [.number (.int 8)],
    [⟨"Text", [.text "a"], [], [], ⟨2, 3⟩⟩,
     ⟨"Button", [.reference "label"], [], [⟨"onTapGesture", [.reference "go"]⟩], ⟨3, 3⟩⟩],
    [], ⟨1, 1⟩⟩], []⟩

theorem source_map_leads_to_names_stack :
    parse stackSource "stack.ts" = .ok stackForest ∧ stackForest.nodes ≠ [] ∧
      ∃ map, (generate ⟨true, "stack.ts", "es2022"⟩ .builtIn stackForest.nodes).map = some map ∧
        (map.mappings.toList.splitOn ';').length =
          ((generate ⟨true, "stack.ts", "es2022"⟩ .builtIn
            stackForest.nodes).code.toList.splitOn '\n').length := by
  have hparse : parse stackSource "stack.ts" = .ok stackForest := by with_unfolding_all rfl
  have hne : stackForest.nodes ≠ [] := by simp [stackForest]
  obtain ⟨map, names, hmap, -, -, -, -, hlength, -⟩ := source_map_leads_to_names stackSource
    "stack.ts" ⟨true, "stack.ts", "es2022"⟩ stackForest hparse hne rfl
  exact ⟨hparse, hne, map, hmap, hlength⟩

end UiMarkup
