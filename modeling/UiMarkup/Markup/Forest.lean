import UiMarkup.Log
import UiMarkup.Markup.Parser

/-!
# Reading a whole source

A source file is host code with markup in it. Tokens that start no component at top level are
skipped. Where a component starts, one attempt is made to read it: it yields a node, or the
component is dropped with a diagnostic and reading goes on, as in host code, from the token at which
the attempt stood.
-/

namespace UiMarkup

/-- The components that start markup in a plain source. -/
def knownComponents : List String :=
  ["VStack", "HStack", "ZStack", "List", "Form", "Text", "Button", "Image", "TextField", "Toggle"]

/-- The words after which a name with a parenthesis or brace is a declaration of the host code. -/
def declarationKeywords : List String :=
  ["new", "function", "class", "interface", "type", "enum", "extends", "implements"]

/-- How many levels of components may nest. A reader that calls itself can nest about a thousand
calls, and two of them, one for a component and one for its block, read a level; the rest is left to
whatever calls the reader. -/
def maxDepth : Nat := 490

/-- A source could not be read because an integer literal has too many digits. -/
structure OversizedInteger where
  digits : Nat
  deriving Repr, DecidableEq

/-- The wording of the error. -/
def OversizedInteger.message (e : OversizedInteger) : String :=
  "Exceeds the limit (" ++ toString Literal.maxIntegerDigits ++
    " digits) for integer string conversion: value has " ++ toString e.digits ++
    " digits; use sys.set_int_max_str_digits() to increase the limit"

/-- What an attempt at a component came to. -/
inductive Outcome where
  | node (c : Component)
  | dropped (d : Diagnostic)
  deriving Repr

/-- An attempt to read a component from the tokens with indices `start` up to `stop`. -/
structure Attempt where
  start : Nat
  stop : Nat
  outcome : Outcome
  deriving Repr

/-- Why a source was given up. -/
inductive Halt where
  | tooDeep (position : Nat)
  | oversizedInteger (digits : Nat)
  deriving Repr, DecidableEq

/-- The attempts made on a source, in order, and why it was given up after them, if it was. -/
structure Survey where
  attempts : List Attempt
  halt : Option Halt
  deriving Repr

/-- The components of a source and a diagnostic for each one that was dropped. -/
structure Forest where
  nodes : List Component
  diagnostics : List Diagnostic
  deriving Repr

namespace Survey

/-- The components that were read, in order. -/
def nodes (s : Survey) : List Component :=
  s.attempts.filterMap fun a =>
    match a.outcome with
    | .node c => some c
    | .dropped _ => none

/-- The diagnostics of the components that were dropped, in order. -/
def diagnostics (s : Survey) : List Diagnostic :=
  s.attempts.filterMap fun a =>
    match a.outcome with
    | .node _ => none
    | .dropped d => some d

end Survey

namespace Parser

/-- The token can be the name of a component at top level. -/
def namesComponent (p : Profile) (t : Token) : Bool :=
  match p with
  | .plain => t.kind == .identifier && knownComponents.contains t.text
  | .extended => t.isCapitalised

/-- A name after this token is not a component: it is a member, or the name of a declaration. -/
def precludesComponent (previous : Token) : Bool :=
  previous.isSymbol "." || (previous.kind == .identifier && declarationKeywords.contains previous.text)

/-- The tokens after `previous` start a component at top level. -/
def startsAtTop (p : Profile) (previous : Option Token) : List Token → Bool
  | name :: next :: _ =>
    namesComponent p name && !previous.any precludesComponent && next.opensCall
  | _ => false

/-- Where reading goes on after an attempt on `ts` that stood at `rest`: at least one token on. -/
def resume (ts rest : List Token) : List Token :=
  if rest.length < ts.length then rest else ts.tail

/-- The last token of `ts` before `rest`. -/
def lastBefore (ts rest : List Token) : Option Token :=
  ts[ts.length - rest.length - 1]?

theorem length_resume_lt (t : Token) (ts rest : List Token) :
    (resume (t :: ts) rest).length < (t :: ts).length := by
  unfold resume
  split <;> simp_all

/-- Surveys the tokens `ts`, of which the first has the given index and follows `previous`. -/
def survey (ctx : Context) (index : Nat) (previous : Option Token) (ts : List Token) : Survey :=
  match ts with
  | [] => ⟨[], none⟩
  | t :: tail =>
    if t.kind == .eof then ⟨[], none⟩
    else if startsAtTop ctx.profile previous (t :: tail) then
      match component ctx maxDepth (t :: tail) with
      | .error (.tooDeep position) => ⟨[], some (.tooDeep position)⟩
      | .error (.oversizedInteger digits) => ⟨[], some (.oversizedInteger digits)⟩
      | .error (.failure f) =>
        let rest := resume (t :: tail) f.rest
        let stop := index + ((t :: tail).length - rest.length)
        let further := survey ctx stop (lastBefore (t :: tail) rest) rest
        let outcome := .dropped ⟨f.cause, f.position, ctx.locate f.position⟩
        ⟨⟨index, stop, outcome⟩ :: further.attempts, further.halt⟩
      | .ok (c, after) =>
        let rest := resume (t :: tail) after
        let stop := index + ((t :: tail).length - rest.length)
        let further := survey ctx stop (lastBefore (t :: tail) rest) rest
        ⟨⟨index, stop, .node c⟩ :: further.attempts, further.halt⟩
    else survey ctx (index + 1) (some t) tail
termination_by ts.length
decreasing_by
  · exact length_resume_lt t tail f.rest
  · exact length_resume_lt t tail after
  · exact Nat.lt_succ_self tail.length

end Parser

/-- The context in which a source is read. -/
def Parser.Context.ofSource (p : Profile) (source : String) : Parser.Context :=
  ⟨p, Place.ofOffset source.toList⟩

/-- Surveys a source text under a profile. -/
def Survey.ofSource (p : Profile) (source : String) : Survey :=
  Parser.survey (.ofSource p source) 0 none (tokenize p source)

namespace Survey

/-- The diagnostic of a source whose components nest too deeply. -/
def tooDeepDiagnostic (source : String) (position : Nat) : Diagnostic :=
  ⟨.nestingTooDeep, position, Place.ofOffset source.toList position⟩

/-- The forest of a surveyed source. Components that nest too deeply void everything else. -/
def forest (source : String) (s : Survey) : Except OversizedInteger Forest :=
  match s.halt with
  | none => .ok ⟨s.nodes, s.diagnostics⟩
  | some (.tooDeep position) => .ok ⟨[], [tooDeepDiagnostic source position]⟩
  | some (.oversizedInteger digits) => .error ⟨digits⟩

/-- How a file without a name is called in messages. -/
def displayName (filename : String) : String :=
  if filename.isEmpty then "<source>" else filename

/-- The log entries of a survey: one for each diagnostic, in the order of discovery. -/
def log (source filename : String) (s : Survey) : List LogEntry :=
  let found :=
    match s.halt with
    | some (.tooDeep position) => s.diagnostics ++ [tooDeepDiagnostic source position]
    | _ => s.diagnostics
  found.map fun d =>
    ⟨.debug, "Markup parse failed in " ++ displayName filename ++ ": " ++ d.text⟩

end Survey

/-- Reads the components of a source text; the file name selects the profile. -/
def parse (source filename : String) : Except OversizedInteger Forest :=
  (Survey.ofSource (.ofFilename filename) source).forest source

end UiMarkup
