import UiMarkup.Proofs.Destinations
import UiMarkup.Proofs.Mappings
import UiMarkup.Proofs.Masking
import UiMarkup.Proofs.Ownership
import UiMarkup.Proofs.Utf8

/-!
# Compiling a file gives everything or nothing

The command to compile a file stops with the status 2 on a mistake of the user: it then has written
nothing at all. Without a mistake it writes the whole module, and the source map if one was asked
for. If the system cannot even tell whether there is a file, as it is with a name that is too long,
the command breaks off with the error of the system; and a source map that cannot be encoded leaves
an empty file behind.

* `exists_code_eq`: generated code ends a line, so that none has to be added.
* `Session.UserFault`: the mistakes.
* `Refusal`, `Breakdown`, `Delivery`: what the command does with a mistake, with an error of the
  system, and without either.
* `compile_all_or_nothing`: the main statement.
-/

namespace UiMarkup

/-! ## Generated code ends a line -/

/-- The statements of components end with a blank one. -/
theorem Component.exists_emitAll_eq (registry : Registry) {nodes : List Component}
    (hne : nodes ≠ []) (index : Nat) :
    ∃ before, emitAll registry index nodes = before ++ [⟨.blank, none⟩] := by
  induction nodes generalizing index with
  | nil => exact absurd rfl hne
  | cons c cs ih =>
    have hcons : emitAll registry index (c :: cs) =
        (emit registry index c).1 ++ emitAll registry (emit registry index c).2 cs := rfl
    by_cases hcs : cs = []
    · subst hcs
      rw [hcons, emit_fst]
      exact ⟨_, List.append_nil _⟩
    · obtain ⟨before, hbefore⟩ := ih hcs (emit registry index c).2
      rw [hcons, hbefore, ← List.append_assoc]
      exact ⟨_, rfl⟩

/-- The last line of a module is empty, and not the only one. -/
theorem exists_moduleLines_eq (keyword : String) (registry : Registry) (nodes : List Component) :
    ∃ lines ≠ [], moduleLines keyword registry nodes = lines ++ [("", none)] := by
  rw [moduleLines]
  by_cases hne : nodes = []
  · subst hne
    exact ⟨importLines.dropLast, by decide, by simp [Component.emitAll, importLines]⟩
  · obtain ⟨before, hbefore⟩ := Component.exists_emitAll_eq registry hne 1
    refine ⟨importLines ++ before.flatMap (Emitted.lines keyword), by simp [importLines], ?_⟩
    rw [hbefore, List.flatMap_append, List.append_assoc]
    rfl

/-- The code of a module ends a line, also if the module builds no component. -/
theorem exists_code_eq (options : BuildOptions) (registry : Registry) (nodes : List Component) :
    ∃ before, (generate options registry nodes).code.toList = before ++ ['\n'] := by
  obtain ⟨lines, hne, hlines⟩ := exists_moduleLines_eq options.keyword registry nodes
  have hcode : (generate options registry nodes).code =
      maskUndefined ("\n".intercalate (lines.map Prod.fst ++ [""])) := by
    rw [generate, hlines, List.map_append]
    rfl
  have hne' : (lines.map Prod.fst).map String.toList ≠ [] := by simpa using hne
  rw [hcode, maskUndefined, String.toList_ofList, String.toList_intercalate, List.map_append]
  rw [show "\n".toList = ['\n'] from rfl]
  refine ⟨maskChars (['\n'].intercalate ((lines.map Prod.fst).map String.toList)), ?_⟩
  rw [List.map_singleton, SourceMap.intercalate_append_singleton hne',
    maskChars_append_cons (by decide)]
  rfl

namespace CommandLine

/-- Nothing is added to the code of a module. -/
theorem Session.withLineEnd_code (options : BuildOptions) (registry : Registry)
    (nodes : List Component) :
    withLineEnd (generate options registry nodes).code =
      (generate options registry nodes).code := by
  obtain ⟨before, hbefore⟩ := exists_code_eq options registry nodes
  rw [withLineEnd, hbefore, List.getLast?_concat, if_pos rfl]

/-! ## The mistakes -/

namespace Session

/-- The file holds the bytes of a text, which is read with all line ends as one. -/
def HasSource (s : Session) (file text : String) : Prop :=
  ∃ chars, s.look file = .file (.bytes (Text.utf8Bytes chars)) ∧
    text = String.ofList (Text.unifyLineEnds chars)

/-- What a user has to mend before a file can be compiled. -/
inductive UserFault (s : Session) (file : String) : Prop where
  /-- Nothing stands at the path. -/
  | missing (h : s.look file = .missing)
  /-- What stands at the path is no file. -/
  | noFile (h : s.look file = .noFile)
  /-- The file cannot be read. -/
  | unreadable {cause : FileCause} (h : s.look file = .file (.unreadable cause))
  /-- The file is not encoded in UTF-8. -/
  | undecodable {content : List UInt8} (h : s.look file = .file (.bytes content))
      (hbytes : ∀ chars, content ≠ Text.utf8Bytes chars)
  /-- The markup has a diagnostic. -/
  | diagnostic {text : String} {forest : Forest} (h : s.HasSource file text)
      (hparse : UiMarkup.parse text file = .ok forest) (hd : forest.diagnostics ≠ [])
  /-- The markup has an integer literal that is too long. -/
  | oversized {text : String} {e : OversizedInteger} (h : s.HasSource file text)
      (hparse : UiMarkup.parse text file = .error e)

variable {s : Session} {file text : String}

theorem readSource_of_hasSource (h : s.HasSource file text) : s.readSource file = .ok text := by
  obtain ⟨chars, hlook, rfl⟩ := h
  have hread : Text.readFile (Text.utf8Bytes chars) =
      .ok (String.ofList (Text.unifyLineEnds chars)) := by
    rw [Text.readFile, Text.decodeUtf8_eq_ok_iff.mpr rfl]
    rfl
  rw [readSource, hlook]
  simp only [FileContent.text, hread, Except.mapError]

/-- A file has one source. -/
theorem HasSource.unique {text' : String} (h : s.HasSource file text)
    (h' : s.HasSource file text') : text = text' :=
  Except.ok.inj ((readSource_of_hasSource h).symm.trans (readSource_of_hasSource h'))

theorem readSource_of_undecodable {content : List UInt8}
    (h : s.look file = .file (.bytes content)) (hbytes : ∀ chars, content ≠ Text.utf8Bytes chars) :
    ∃ message, s.readSource file = .error (.user message) := by
  cases hdecode : Text.decodeUtf8 content with
  | ok chars => exact absurd (Text.decodeUtf8_eq_ok_iff.mp hdecode) (hbytes chars)
  | error e =>
    have hread : Text.readFile content = .error e := by
      rw [Text.readFile, hdecode]
      rfl
    rw [readSource, h]
    simp only [FileContent.text, hread, Except.mapError]
    exact ⟨_, rfl⟩

/-- Without a mistake there is a source without a diagnostic, unless the system cannot tell. -/
theorem exists_of_not_userFault (h : ¬ s.UserFault file) (hlook : ∀ e, s.look file ≠ .failed e) :
    ∃ text forest, s.HasSource file text ∧ UiMarkup.parse text file = .ok forest ∧
      forest.diagnostics = [] := by
  cases hfound : s.look file with
  | missing => exact absurd (.missing hfound) h
  | noFile => exact absurd (.noFile hfound) h
  | failed e => exact absurd hfound (hlook e)
  | file content =>
    cases content with
    | unreadable cause => exact absurd (.unreadable hfound) h
    | bytes content =>
      by_cases hbytes : ∃ chars, content = Text.utf8Bytes chars
      · obtain ⟨chars, rfl⟩ := hbytes
        have hsource : s.HasSource file (String.ofList (Text.unifyLineEnds chars)) :=
          ⟨chars, hfound, rfl⟩
        cases hparse : UiMarkup.parse (String.ofList (Text.unifyLineEnds chars)) file with
        | error e => exact absurd (.oversized hsource hparse) h
        | ok forest =>
          by_cases hd : forest.diagnostics = []
          · exact ⟨_, forest, hsource, hparse, hd⟩
          · exact absurd (.diagnostic hsource hparse hd) h
      · exact absurd (.undecodable hfound (not_exists.mp hbytes)) h

end Session

/-! ## The outcomes -/

/-- A command that ends with the status 2 and has done nothing else than to report why. -/
structure Refusal (o : Outcome) : Prop where
  ending : o.ending = .status 2
  stdout : o.stdout = ""
  writes : o.writes = []

/-- A command that ends with an error of the system and has done nothing. -/
structure Breakdown (e : FileError) (o : Outcome) : Prop where
  ending : o.ending = .fileError e
  stdout : o.stdout = ""
  writes : o.writes = []

/-- A command that writes the whole module of components, and the source map if one is asked for and
can be written. A source map that cannot be encoded is written as an empty file. -/
structure Delivery (s : Session) (file : String) (options : CompileOptions)
    (nodes : List Component) (o : Outcome) : Prop where
  stdout : o.stdout = (generate (options.build file) .builtIn nodes).code
  endsLine : ∃ before, o.stdout.toList = before ++ ['\n']
  unmapped : options.sourceMap = false → o.ending = .status 0 ∧ o.writes = []
  mapped : options.sourceMap → ¬ s.RefusesMap (Session.mapPath file options) →
    ∃ map, (generate (options.build file) .builtIn nodes).map = some map ∧
      match s.unencodable? map.json.compact with
      | none => o.ending = .status 0 ∧
        o.writes = [⟨FileWrite.destination (Session.mapPath file options), map.json.compact⟩]
      | some _ => o.ending = .status 2 ∧
        o.writes = [⟨FileWrite.destination (Session.mapPath file options), ""⟩]
  refused : options.sourceMap → s.RefusesMap (Session.mapPath file options) →
    ∃ e, o.ending = .fileError e ∧ o.writes = []

namespace Session

variable {s : Session} {file : String}

theorem refusal_fail (log : List LogEntry) (message : String) : Refusal (s.fail log message) :=
  ⟨rfl, rfl, rfl⟩

/-- A mistake stops the command before anything is written. -/
theorem refusal_compile (options : CompileOptions) (h : s.UserFault file) :
    Refusal (s.compile file options) := by
  rw [compile]
  cases h with
  | missing h =>
    rw [readSource, h]
    exact refusal_fail _ _
  | noFile h =>
    rw [readSource, h]
    exact refusal_fail _ _
  | unreadable h =>
    rw [readSource, h]
    exact refusal_fail _ _
  | undecodable h hbytes =>
    obtain ⟨message, hread⟩ := readSource_of_undecodable h hbytes
    rw [hread]
    exact refusal_fail _ _
  | @diagnostic text forest h hparse hd =>
    rw [UiMarkup.parse] at hparse
    -- the branch without diagnostics falls away by `hd`
    simp only [readSource_of_hasSource h, hparse]
    exact ⟨rfl, rfl, rfl⟩
  | oversized h hparse =>
    rw [UiMarkup.parse] at hparse
    simp only [readSource_of_hasSource h, hparse]
    exact refusal_fail _ _

/-- An error of the system at the first look is not caught. -/
theorem breakdown_compile {e : FileError} (options : CompileOptions) (h : s.look file = .failed e) :
    Breakdown e (s.compile file options) := by
  rw [compile, readSource, h]
  exact ⟨rfl, rfl, rfl⟩

/-- Components that were parsed without a diagnostic are emitted. -/
theorem exists_compile_eq (options : CompileOptions) {text : String} {forest : Forest}
    (h : s.HasSource file text) (hparse : UiMarkup.parse text file = .ok forest)
    (hd : forest.diagnostics = []) :
    ∃ log, s.compile file options = s.emit file options log forest.nodes := by
  rw [UiMarkup.parse] at hparse
  simp only [compile, readSource_of_hasSource h, hparse, hd]
  exact ⟨_, rfl⟩

theorem null_not_mem_mapPath {options : CompileOptions} (hfile : '\x00' ∉ file.toList)
    (hout : ∀ path ∈ options.mapOut, '\x00' ∉ path.toList) :
    '\x00' ∉ (mapPath file options).toList := by
  have hdefault : '\x00' ∉ (file ++ ".map").toList := by simpa using hfile
  unfold mapPath
  split
  · next path hpath =>
    split
    · exact hdefault
    · exact hout path hpath
  · exact hdefault

section
variable {path : String} (stdout stderr text : String)

/-- The source map comes after the code. -/
theorem stdout_emitMap (path : String) : (s.emitMap stdout stderr path text).stdout = stdout := by
  unfold emitMap
  split
  · rfl
  split
  · rfl
  · split <;> rfl

theorem emitMap_of_refused (hnull : '\x00' ∉ path.toList) (h : s.RefusesMap path) :
    ∃ e, (s.emitMap stdout stderr path text).ending = .fileError e ∧
      (s.emitMap stdout stderr path text).writes = [] := by
  obtain ⟨e, he⟩ := prepareMap_of_refused h text
  exact ⟨e, by simp [emitMap, hnull, he]⟩

/-- A source map that is not refused is written, but for one that cannot be encoded. -/
theorem emitMap_of_not_refused (hnull : '\x00' ∉ path.toList) (h : ¬ s.RefusesMap path) :
    match s.unencodable? text with
    | none => (s.emitMap stdout stderr path text).ending = .status 0 ∧
      (s.emitMap stdout stderr path text).writes = [⟨FileWrite.destination path, text⟩]
    | some _ => (s.emitMap stdout stderr path text).ending = .status 2 ∧
      (s.emitMap stdout stderr path text).writes = [⟨FileWrite.destination path, ""⟩] := by
  have hwrite := prepareMap_of_not_refused h text
  cases hencode : s.unencodable? text with
  | none => simp [emitMap, hnull, hwrite, hencode]
  | some reason => simp [emitMap, hnull, hwrite, hencode]

end

/-- A module is written whole, and then its source map. -/
theorem delivery_emit {options : CompileOptions} (log : List LogEntry) (nodes : List Component)
    (hnull : '\x00' ∉ (mapPath file options).toList) :
    Delivery s file options nodes (s.emit file options log nodes) := by
  have hends := exists_code_eq (options.build file) .builtIn nodes
  have hcode := withLineEnd_code (options.build file) .builtIn nodes
  cases hmaps : options.sourceMap with
  | false =>
    have hmap : (generate (options.build file) .builtIn nodes).map = none := by
      rw [generate, CompileOptions.build, hmaps]
      rfl
    simp only [emit, hmap, hcode]
    exact
      { stdout := rfl
        endsLine := hends
        unmapped := fun _ => ⟨rfl, rfl⟩
        mapped := fun h => absurd (hmaps.symm.trans h) (by decide)
        refused := fun h => absurd (hmaps.symm.trans h) (by decide) }
  | true =>
    obtain ⟨map, hmap⟩ :
        ∃ map, (generate (options.build file) .builtIn nodes).map = some map := by
      rw [generate, CompileOptions.build, hmaps]
      exact ⟨_, rfl⟩
    simp only [emit, hmap, hcode]
    exact
      { stdout := stdout_emitMap ..
        endsLine := by
          rw [stdout_emitMap]
          exact hends
        unmapped := fun h => absurd (hmaps.symm.trans h) (by decide)
        mapped := fun _ h => ⟨map, hmap, emitMap_of_not_refused _ _ _ hnull h⟩
        refused := fun _ h => emitMap_of_refused _ _ _ hnull h }

end Session

/-- **Compiling is all or nothing, as far as the system can tell what there is.** A command line
that asks for a file to be compiled is refused with the status 2 if the file is missing, is no file,
cannot be read, is not encoded in UTF-8, or has markup with a diagnostic or with an integer literal
that is too long: nothing goes to the standard output, and no file is written. If the system cannot
tell whether there is a file, the command breaks off with the error of the system instead. Otherwise
the standard output is the whole code of the components that were read, which ends a line. The
status is then zero, unless a source map is asked for and cannot be written or encoded; and nothing
but this source map is written, where the path given for it leads. -/
theorem compile_all_or_nothing (s : Session) {arguments : List String} {file : String}
    {options : CompileOptions} (hread : Command.read arguments = .ok (.compile file options))
    (hnull : ∀ path ∈ file :: options.mapOut.toList, '\x00' ∉ path.toList) :
    (s.UserFault file → Refusal (run s arguments)) ∧
    (∀ e, s.look file = .failed e → Breakdown e (run s arguments)) ∧
    (¬ s.UserFault file → (∀ e, s.look file ≠ .failed e) →
      ∃ text forest, s.HasSource file text ∧ parse text file = .ok forest ∧
        forest.diagnostics = [] ∧ Delivery s file options forest.nodes (run s arguments)) := by
  have hrun : run s arguments = s.compile file options := by
    rw [run, hread]
    rfl
  obtain ⟨hfile, hout⟩ := List.forall_mem_cons.mp hnull
  rw [hrun]
  refine ⟨fun h => Session.refusal_compile options h,
    fun e h => Session.breakdown_compile options h, fun h hlook => ?_⟩
  obtain ⟨text, forest, hsource, hparse, hd⟩ := Session.exists_of_not_userFault h hlook
  refine ⟨text, forest, hsource, hparse, hd, ?_⟩
  obtain ⟨log, hcompile⟩ := Session.exists_compile_eq options hsource hparse hd
  rw [hcompile]
  exact Session.delivery_emit log forest.nodes
    (Session.null_not_mem_mapPath hfile fun path h => hout path (by simpa using h))

/-- The source of a note. -/
def noteSource : String := "Text(\"a\")\n"

/-- A directory with a note in it. -/
def noteSession : Session :=
  { directory := "/notes"
    files := [.file "note.tui" (.bytes (Text.utf8Bytes noteSource.toList))] }

theorem compile_all_or_nothing_note :
    Command.read ["compile", "--source-map", "note.tui"] =
        .ok (.compile "note.tui" { sourceMap := true }) ∧
      (run noteSession ["compile", "--source-map", "note.tui"]).ending = .status 0 ∧
      (run noteSession ["compile", "--source-map", "note.tui"]).writes.map FileWrite.names =
        [["note.tui.map"]] ∧
      Command.read ["compile", "nota.tui"] = .ok (.compile "nota.tui" {}) ∧
      Refusal (run noteSession ["compile", "nota.tui"]) := by
  have hread : Command.read ["compile", "--source-map", "note.tui"] =
      .ok (.compile "note.tui" { sourceMap := true }) := by with_unfolding_all rfl
  have hread' : Command.read ["compile", "nota.tui"] = .ok (.compile "nota.tui" {}) := by
    with_unfolding_all rfl
  have hlook : noteSession.look "note.tui" = .file (.bytes (Text.utf8Bytes noteSource.toList)) := by
    decide +kernel
  have hparse : parse noteSource "note.tui" =
      .ok ⟨[⟨"Text", [.text "a"], [], [], ⟨1, 1⟩⟩], []⟩ := by with_unfolding_all rfl
  have hsource : noteSession.HasSource "note.tui" noteSource :=
    ⟨noteSource.toList, hlook, by decide +kernel⟩
  have hfault : ¬ noteSession.UserFault "note.tui" := by
    intro h
    cases h with
    | missing h => cases hlook.symm.trans h
    | noFile h => cases hlook.symm.trans h
    | unreadable h => cases hlook.symm.trans h
    | undecodable h hbytes =>
      obtain rfl := FileContent.bytes.inj (Lookup.file.inj (hlook.symm.trans h))
      exact hbytes _ rfl
    | diagnostic h hparse' hd =>
      rw [h.unique hsource, hparse] at hparse'
      cases hparse'
      exact hd rfl
    | oversized h hparse' =>
      rw [h.unique hsource, hparse] at hparse'
      cases hparse'
  have hfree : ¬ noteSession.RefusesMap "note.tui.map" := by
    have hsegments : FileTree.segmentsOf "note.tui.map" = ["note.tui.map"] := by decide +kernel
    rintro (h | ⟨-, h⟩)
    · exact h rfl
    rw [hsegments] at h
    rcases h with h | h | h
    · exact absurd h (by decide +kernel)
    · exact FileTree.not_barredOnWay_nil h
    · rcases h "note.tui.map" rfl with h | h | ⟨entries, h⟩
      · exact absurd h (by decide)
      · exact absurd h (by decide +kernel)
      · have hentry : FileTree.child? noteSession.files "note.tui.map" = none := by decide +kernel
        cases hentry.symm.trans h
  obtain ⟨text, forest, -, -, -, hdelivery⟩ :=
    (compile_all_or_nothing noteSession hread (by decide)).2.2 hfault fun e h => by
      cases hlook.symm.trans h
  obtain ⟨map, -, hending, hwrites⟩ := hdelivery.mapped rfl hfree
  refine ⟨hread, hending, ?_, hread', ?_⟩
  · have hpath : FileWrite.destination "note.tui.map" = ["note.tui.map"] := by decide +kernel
    rw [hwrites, List.map_singleton]
    exact congrArg (fun names => [names]) hpath
  · exact (compile_all_or_nothing noteSession hread' (by decide)).1 (.missing (by decide +kernel))

/-- A word that does not start with a hyphen is taken for the file. -/
theorem Command.read_compile {file : String} (h : file.toList.head? ≠ some '-') :
    Command.read ["compile", file] = .ok (.compile file {}) := by
  have hdashes : file ≠ "--" := by
    rintro rfl
    exact h rfl
  have hplain (s : Synopsis) : s.classifyAll [file] = .ok [(file, .plain)] := by
    simp [Synopsis.classifyAll, Synopsis.classify, hdashes, h, Except.map]
  have hmain : mainSynopsis.classifyAll ["compile", file] =
      .ok [("compile", .plain), (file, .plain)] := by
    rw [Synopsis.classifyAll, hplain]
    rfl
  have houter : mainSynopsis.read versionLine ["compile", file] =
      .ok { operand := ["compile", file] } := by
    rw [Synopsis.read, hmain]
    rfl
  have hinner : compileSynopsis.read versionLine [file] = .ok { operand := [file] } := by
    rw [Synopsis.read, hplain]
    rfl
  have hnamed : readNamed "compile" [file] = .ok (.compile file {}, []) := by
    rw [readNamed, hinner]
    rfl
  simp [read, houter, Reading.word, hnamed]

/-- The system does not tell what stands under a name that is too long. -/
theorem Session.look_of_long_name {s : Session} {name : List Char}
    (hdenial : s.surroundings.denial? (String.ofList name) = none)
    (hsegments : Path.segments name = [name]) (hroot : Path.root name = [])
    (hdots : name ≠ ['.', '.']) (hlong : FileTree.nameLimit < Text.byteLength name) :
    s.look (String.ofList name) = .failed ⟨.nameTooLong, String.ofList name⟩ := by
  have hleaves : Path.leaves name = false := by
    rw [Path.leaves, hroot, hsegments]
    simp [Path.climbs, hdots]
  have hshown : Path.shown (String.ofList name) = String.ofList name := by
    simp [Path.shown, Path.parts, hroot, hsegments]
  have htarget : FileTree.target s.files (String.ofList name) = .error .nameTooLong := by
    have hfits : FileTree.nameFits (String.ofList name) = false := by
      simpa [FileTree.nameFits] using hlong
    have hname : String.ofList name ≠ ".." :=
      fun h => hdots (by simpa using congrArg String.toList h)
    rw [FileTree.target, FileTree.segmentsOf, String.toList_ofList, hroot, hsegments]
    simp [FileTree.follow, hname, hfits]
  rw [look, hdenial, String.toList_ofList, hleaves]
  simp [FileTree.look, htarget, hshown]

/-- In a directory without any file, a name of 256 characters is not refused as that of a missing
file: the command breaks off. -/
theorem compile_breaks_off_for_long_name :
    let name := String.ofList (List.replicate 256 'a')
    let s : Session := { directory := "/notes", files := [] }
    Command.read ["compile", name] = .ok (.compile name {}) ∧
      (run s ["compile", name]).ending = .fileError ⟨.nameTooLong, name⟩ := by
  intro name s
  have hread : Command.read ["compile", name] = .ok (.compile name {}) :=
    Command.read_compile (by rw [String.toList_ofList]; decide)
  have hlook : s.look name = .failed ⟨.nameTooLong, name⟩ :=
    Session.look_of_long_name rfl (by decide +kernel) (by decide +kernel) (by decide +kernel)
      (by decide +kernel)
  refine ⟨hread, ?_⟩
  rw [run, hread]
  exact (Session.breakdown_compile {} hlook).ending

end CommandLine

end UiMarkup
