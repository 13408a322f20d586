import UiMarkup.Text.Digit
import UiMarkup.Text.Quoted

/-!
# Command line arguments

Arguments are options, the values of options, and operands. A long option may be shortened as long
as it stays unambiguous, and its value may be attached with an equals sign. Two hyphens alone end
the options. What no rule takes is left over.
-/

namespace UiMarkup.CommandLine

/-- What an option does. -/
inductive OptionEffect where
  /-- Shows how the command is used, and stops. -/
  | help
  /-- Shows the version, and stops. -/
  | version
  /-- Is noted. -/
  | flag
  /-- Is noted with its value. -/
  | value
  deriving Repr, DecidableEq

/-- An option with its spellings. -/
structure OptionSpec where
  names : List String
  effect : OptionEffect
  deriving Repr, DecidableEq

namespace OptionSpec

/-- How messages call the option. -/
def title (o : OptionSpec) : String :=
  "/".intercalate o.names

/-- The spelling under which the option is noted. -/
def key (o : OptionSpec) : String :=
  o.names.getLast?.getD ""

end OptionSpec

/-- The operand of a command. -/
inductive Operand where
  /-- There is none. -/
  | none
  /-- One word. -/
  | word (name : String)
  /-- A word and everything after it. -/
  | rest (name : String)
  deriving Repr, DecidableEq

/-- What a command takes. -/
structure Synopsis where
  program : String
  options : List OptionSpec
  operand : Operand
  deriving Repr, DecidableEq

/-- A command line that is answered at once: with what is written, and with the status. -/
structure Stop where
  status : Nat
  stdout : String
  stderr : String
  deriving Repr, DecidableEq

/-- Arguments that were read: the options that were noted, in order, the words of the operand, and
what is left over. -/
structure Reading where
  noted : List (String × String) := []
  operand : List String := []
  extras : List String := []
  deriving Repr, DecidableEq

namespace Synopsis

/-- The answer to a wrong command line. -/
def refuse (s : Synopsis) (message : String) : Stop :=
  ⟨2, "", s.program ++ ": error: " ++ message ++ "\n"⟩

/-- The answer to a wrong use of an option. -/
def refuseOption (s : Synopsis) (o : OptionSpec) (message : String) : Stop :=
  s.refuse ("argument " ++ o.title ++ ": " ++ message)

/-- The answer to a value that an option does not take. -/
def refuseAttached (s : Synopsis) (o : OptionSpec) (value : String) : Stop :=
  s.refuseOption o ("ignored explicit argument " ++ Text.quoted value)

/-! ## Words -/

/-- What an argument is taken for. -/
inductive WordKind where
  | plain
  /-- Two hyphens, which end the options. -/
  | separator
  /-- An option alone. -/
  | option (o : OptionSpec)
  /-- An option with a value after an equals sign. -/
  | assigned (o : OptionSpec) (value : String)
  /-- A short option with more letters right after it. -/
  | clustered (o : OptionSpec) (letters : List Char)
  /-- Something that looks like an option and is none. -/
  | unknown
  deriving Repr

/-- Splits a text at its first equals sign. -/
def splitEquals (s : List Char) : List Char × Option String :=
  match s.dropWhile (· != '=') with
  | [] => (s, none)
  | _ :: value => (s.takeWhile (· != '='), some (String.ofList value))

/-- The text is a negative number. -/
def isNegativeNumber : List Char → Bool
  | '-' :: s =>
    let whole := s.takeWhile Text.isDigit
    match s.dropWhile Text.isDigit with
    | [] => !whole.isEmpty
    | '.' :: fraction => !fraction.isEmpty && fraction.all Text.isDigit
    | _ => false
  | _ => false

/-- The spellings of all options. -/
def spellings (s : Synopsis) : List (String × OptionSpec) :=
  s.options.flatMap fun o => o.names.map fun name => (name, o)

/-- The option with a spelling. -/
def find? (s : Synopsis) (name : String) : Option OptionSpec :=
  (s.spellings.find? fun entry => entry.1 == name).map Prod.snd

/-- The options that a text may stand for: a beginning of a long spelling, or a short spelling with
something attached. -/
def candidates (s : Synopsis) (text : List Char) : List (String × WordKind) :=
  if ['-', '-'].isPrefixOf text then
    let (start, value) := splitEquals text
    (s.spellings.filter fun entry => start.isPrefixOf entry.1.toList).map fun (name, o) =>
      match value with
      | some value => (name, .assigned o value)
      | none => (name, .option o)
  else
    s.spellings.filterMap fun (name, o) =>
      if name.toList == text.take 2 then some (name, .clustered o (text.drop 2))
      else if text.isPrefixOf name.toList then some (name, .option o)
      else none

/-- What an argument before the separator is taken for. -/
def classify (s : Synopsis) (argument : String) : Except Stop WordKind :=
  let text := argument.toList
  if text.head? != some '-' then .ok .plain
  else
    match s.find? argument with
    | some o => .ok (.option o)
    | none =>
      if text.length = 1 then .ok .plain
      else
        let (start, value) := splitEquals text
        match value, s.find? (String.ofList start) with
        | some value, some o => .ok (.assigned o value)
        | _, _ =>
          match s.candidates text with
          | [(_, kind)] => .ok kind
          | [] =>
            if isNegativeNumber text || text.contains ' ' then .ok .plain else .ok .unknown
          | several =>
            .error (s.refuse ("ambiguous option: " ++ argument ++ " could match " ++
              ", ".intercalate (several.map Prod.fst)))

/-- What each argument is taken for. -/
def classifyAll (s : Synopsis) : List String → Except Stop (List (String × WordKind))
  | [] => .ok []
  | argument :: arguments =>
    if argument = "--" then
      .ok ((argument, .separator) :: arguments.map fun a => (a, .plain))
    else
      match s.classify argument with
      | .error e => .error e
      | .ok kind => (s.classifyAll arguments).map ((argument, kind) :: ·)

/-! ## Reading -/

/-- The options of a cluster such as `-ab`, of which the first is `o` and the letters of the others
follow. Letters that stand for no option are left over. -/
def cluster (s : Synopsis) (o : OptionSpec) :
    List Char → Except Stop (List OptionSpec × Option String)
  | [] => .ok ([o], none)
  | c :: letters =>
    if c = '-' then .error (s.refuseAttached o (String.ofList (c :: letters)))
    else
      match s.find? (String.ofList ['-', c]) with
      | none => .ok ([o], some (String.ofList ('-' :: c :: letters)))
      | some next =>
        match letters with
        | '=' :: value => .error (s.refuseAttached next (String.ofList value))
        | letters =>
          match s.cluster next letters with
          | .error e => .error e
          | .ok (os, extra) => .ok (o :: os, extra)

/-- The answer to an option that stops, if it does. -/
def stop? (s : Synopsis) (version : String) (o : OptionSpec) : Option Stop :=
  match o.effect with
  | .help => some ⟨0, "usage: " ++ s.program ++ "\n", ""⟩
  | .version => some ⟨0, version ++ "\n", ""⟩
  | _ => none

/-- Notes options without values, or stops at the first that does. -/
def noteAll (s : Synopsis) (version : String) : List OptionSpec → Except Stop (List (String × String))
  | [] => .ok []
  | o :: os =>
    match s.stop? version o with
    | some stop => .error stop
    | none => (s.noteAll version os).map ((o.key, "") :: ·)

/-- A reading with options noted before it. -/
def noting (noted : List (String × String)) (r : Reading) : Reading :=
  { r with noted := noted ++ r.noted }

/-- A reading with arguments left over before it. -/
def leaving (extras : List String) (r : Reading) : Reading :=
  { r with extras := extras ++ r.extras }

/-- Reads arguments from left to right. `pending` says that the operand is still to come. -/
def readWords (s : Synopsis) (version : String) (pending : Bool) :
    List (String × WordKind) → Except Stop Reading
  | [] =>
    match pending, s.operand with
    | true, .word name | true, .rest name =>
      .error (s.refuse ("the following arguments are required: " ++ name))
    | _, _ => .ok {}
  | (argument, kind) :: words =>
    match kind with
    | .assigned o value =>
      if o.effect = .value then
        (s.readWords version pending words).map (noting [(o.key, value)])
      else .error (s.refuseAttached o value)
    | .clustered o letters =>
      match s.cluster o letters with
      | .error e => .error e
      | .ok (os, extra) =>
        match s.noteAll version os with
        | .error e => .error e
        | .ok noted =>
          (s.readWords version pending words).map fun r => noting noted (leaving extra.toList r)
    | .option o =>
      match o.effect, words with
      | .value, (value, .plain) :: words =>
        (s.readWords version pending words).map (noting [(o.key, value)])
      | .value, _ => .error (s.refuseOption o "expected one argument")
      | _, words =>
        match s.noteAll version [o] with
        | .error e => .error e
        | .ok noted => (s.readWords version pending words).map (noting noted)
    | .unknown => (s.readWords version pending words).map (leaving [argument])
    | .plain =>
      match pending, s.operand, words with
      | true, .rest _, words => .ok { operand := argument :: words.map Prod.fst }
      | true, .word _, (_, .separator) :: words =>
        (s.readWords version false words).map fun r => { r with operand := [argument] }
      | true, .word _, words =>
        (s.readWords version false words).map fun r => { r with operand := [argument] }
      | _, _, words => (s.readWords version pending words).map (leaving [argument])
    | .separator =>
      match pending, s.operand, words with
      | true, .rest _, _ :: _ => .ok { operand := argument :: words.map Prod.fst }
      | true, .word _, (value, _) :: words =>
        (s.readWords version false words).map fun r => { r with operand := [value] }
      | _, _, words => (s.readWords version pending words).map (leaving [argument])

/-- Reads arguments. `version` is the line that shows the version. -/
def read (s : Synopsis) (version : String) (arguments : List String) : Except Stop Reading :=
  match s.classifyAll arguments with
  | .error e => .error e
  | .ok words => s.readWords version (s.operand != .none) words

end Synopsis

end UiMarkup.CommandLine
