import UiMarkup.Yaml.Cursor

/-!
# YAML scalars

Plain, quoted and block scalars. In plain and quoted scalars a line end is folded: a single one
becomes a blank, and of several all but one remain.
-/

namespace UiMarkup.Yaml

/-- What a row of line ends folds into. -/
def folded (breaks : Nat) : List Char :=
  if breaks = 1 then [' '] else List.replicate (breaks - 1) '\n'

/-! ## Quoted scalars -/

/-- `c` is a space or a tab. -/
def isSpaceOrTab (c : Char) : Bool :=
  c == ' ' || c == '\t'

/-- Counts line ends with blanks around them. A document marker may not follow one. -/
def quotedBreaks : (fuel : Nat) → List Char → Option (Nat × List Char)
  | 0, _ => none
  | fuel + 1, s =>
    match s with
    | '\n' :: s =>
      if startsMarker s then none
      else
        (quotedBreaks fuel (s.dropWhile isSpaceOrTab)).map fun (n, rest) => (n + 1, rest)
    | s => some (0, s)

/-- The character of a one-letter escape. -/
def escape? : Char → Option Char
  | '0' => some (Char.ofNat 0)
  | 'a' => some (Char.ofNat 7)
  | 'b' => some (Char.ofNat 8)
  | 't' => some '\t'
  | '\t' => some '\t'
  | 'n' => some '\n'
  | 'v' => some (Char.ofNat 11)
  | 'f' => some (Char.ofNat 12)
  | 'r' => some '\r'
  | 'e' => some (Char.ofNat 27)
  | ' ' => some ' '
  | '"' => some '"'
  | '\\' => some '\\'
  | '/' => some '/'
  | 'N' => some (Char.ofNat 0x85)
  | '_' => some (Char.ofNat 0xa0)
  | 'L' => some (Char.ofNat 0x2028)
  | 'P' => some (Char.ofNat 0x2029)
  | _ => none

/-- The number of hexadecimal digits of a numeric escape. -/
def escapeWidth? : Char → Option Nat
  | 'x' => some 2
  | 'u' => some 4
  | 'U' => some 8
  | _ => none

/-- The value of a hexadecimal digit. -/
def hexDigit? (c : Char) : Option Nat :=
  if c.isDigit then some (c.toNat - 48)
  else if 'a' ≤ c && c ≤ 'f' then some (c.toNat - 87)
  else if 'A' ≤ c && c ≤ 'F' then some (c.toNat - 55)
  else none

/-- The character whose code is written with exactly `width` digits. -/
def hexChar? (width : Nat) (s : List Char) : Option Char := do
  let digits ← (s.take width).mapM hexDigit?
  if digits.length = width then some (Char.ofNat (digits.foldl (fun n d => 16 * n + d) 0))
  else none

/-- The rest of a quoted scalar, up to its closing quote. -/
def quotedRest (double : Bool) : (fuel : Nat) → List Char → Option (List Char × List Char)
  | 0, _ => none
  | fuel + 1, s =>
    let onward (front : List Char) (s : List Char) : Option (List Char × List Char) :=
      (quotedRest double fuel s).map fun (text, rest) => (front ++ text, rest)
    match s with
    | [] => none
    | c :: s =>
      if isSpaceOrTab c || c == '\n' then
        let blanks := (c :: s).takeWhile isSpaceOrTab
        let after := (c :: s).dropWhile isSpaceOrTab
        if after.head? = some '\n' then
          match quotedBreaks (after.length + 1) after with
          | none => none
          | some (n, rest) => onward (folded n) rest
        else onward blanks after
      else if double then
        if c = '"' then some ([], s)
        else if c = '\\' then
          match s with
          | '\n' :: _ =>
            match quotedBreaks (s.length + 1) s with
            | none => none
            | some (n, rest) => onward (List.replicate (n - 1) '\n') rest
          | e :: s =>
            match escape? e, escapeWidth? e with
            | some d, _ => onward [d] s
            | none, some width =>
              match hexChar? width s with
              | some d => onward [d] (s.drop width)
              | none => none
            | none, none => none
          | [] => none
        else onward [c] s
      else if c = '\'' then
        match s with
        | '\'' :: s => onward ['\''] s
        | s => some ([], s)
      else onward [c] s

/-- A quoted scalar at its opening quote. -/
def quotedScalar (c : Cursor) : Read String :=
  match c.rest with
  | [] => none
  | quote :: s =>
    (quotedRest (quote == '"') (s.length + 1) s).map fun (text, rest) =>
      (String.ofList text, c.jumpTo rest)

/-! ## Plain scalars -/

/-- The indicators between flow brackets. -/
def flowIndicators : List Char := [',', '[', ']', '{', '}']

/-- A plain scalar may start here. -/
def startsPlain (flow : Bool) (c : Cursor) : Bool :=
  match c.peek? with
  | none => false
  | some ch =>
    if isGap (some ch) then false
    else if "-?:,[]\x7b\x7d#&*!|>'\"%@`".toList.contains ch then
      !isGap c.second? && (ch == '-' || (!flow && (ch == '?' || ch == ':')) || (flow && ch == ':'))
    else true

/-- The characters of a plain scalar up to a gap, or to an indicator that ends it. -/
def plainWord (flow : Bool) : List Char → List Char × List Char
  | [] => ([], [])
  | c :: s =>
    if isGap (some c) || (c == ':' && isGap s.head?) || (flow && flowIndicators.contains c) then
      ([], c :: s)
    else
      let (word, rest) := plainWord flow s
      (c :: word, rest)

/-- A plain scalar on one line: words with spaces between them. -/
def plainLine (flow : Bool) : (fuel : Nat) → List Char → List Char × List Char
  | 0, s => ([], s)
  | fuel + 1, s =>
    let (word, after) := plainWord flow s
    let spaces := after.takeWhile (· == ' ')
    let onward := after.dropWhile (· == ' ')
    if word.isEmpty || spaces.isEmpty || onward.head? == some '#' ||
        (plainWord flow onward).1.isEmpty then (word, after)
    else
      let (words, rest) := plainLine flow fuel onward
      (word ++ spaces ++ words, rest)

/-- Counts line ends with spaces around them, from the end of a line on. -/
def plainBreaks : (fuel : Nat) → Cursor → Nat × Cursor
  | 0, c => (0, c)
  | fuel + 1, c =>
    let c := c.skipSpaces
    if c.peek? = some '\n' then
      let c := c.next
      if c.atMarker then (1, c)
      else
        let (n, c) := plainBreaks fuel c
        (n + 1, c)
    else (0, c)

/-- A plain scalar, which goes on over lines that are indented more than `indent`. -/
def plainLines (flow : Bool) (indent : Int) : (fuel : Nat) → Cursor → List Char × Cursor
  | 0, c => ([], c)
  | fuel + 1, c =>
    let (text, rest) := plainLine flow (c.rest.length + 1) c.rest
    let stop := c.jumpTo rest
    let (breaks, further) := plainBreaks (rest.length + 1) stop
    if breaks = 0 || further.atEnd || further.peek? == some '#' ||
        (!flow && further.column ≤ indent) || (plainWord flow further.rest).1.isEmpty then
      (text, stop)
    else
      let (more, c) := plainLines flow indent fuel further
      (text ++ folded breaks ++ more, c)

/-- A plain scalar. -/
def plainScalar (flow : Bool) (indent : Int) (c : Cursor) : Read String :=
  let (text, stop) := plainLines flow indent (c.rest.length + 1) c
  some (String.ofList text, stop)

/-! ## Block scalars -/

/-- What happens to the line ends after a block scalar. -/
inductive Chomping where
  | clip
  | strip
  | keep
  deriving Repr, DecidableEq

/-- The indicators of a block scalar: chomping, and indentation if it is given. -/
def blockHeader : List Char → Option (Chomping × Option Nat × List Char)
  | '+' :: d :: s => if '1' ≤ d && d ≤ '9' then some (.keep, some (d.toNat - 48), s)
    else some (.keep, none, d :: s)
  | '-' :: d :: s => if '1' ≤ d && d ≤ '9' then some (.strip, some (d.toNat - 48), s)
    else some (.strip, none, d :: s)
  | d :: s =>
    if d = '+' then some (.keep, none, s)
    else if d = '-' then some (.strip, none, s)
    else if '1' ≤ d && d ≤ '9' then
      match s with
      | '+' :: s => some (.keep, some (d.toNat - 48), s)
      | '-' :: s => some (.strip, some (d.toNat - 48), s)
      | s => some (.clip, some (d.toNat - 48), s)
    else if d = '0' then none
    else some (.clip, none, d :: s)
  | [] => some (.clip, none, [])

/-- The rest of the header line, which may hold a comment only. -/
def blockHeaderEnd? (s : List Char) : Option (List Char) :=
  let s := s.dropWhile (· == ' ')
  let s := if s.head? = some '#' then s.dropWhile (· != '\n') else s
  match s with
  | [] => some []
  | '\n' :: s => some s
  | _ => none

/-- The deepest column that is reached before the first content. -/
def deepestColumn (column deepest : Nat) : List Char → Nat
  | ' ' :: s => deepestColumn (column + 1) (max deepest (column + 1)) s
  | '\n' :: s => deepestColumn 0 deepest s
  | _ => deepest

/-- Skips spaces up to the given column. -/
def skipIndent (indent column : Nat) : List Char → Nat × List Char
  | ' ' :: s => if column < indent then skipIndent indent (column + 1) s else (column, ' ' :: s)
  | s => (column, s)

/-- Counts empty lines; stops at the column where content is found. -/
def blockBreaks (indent : Nat) : (fuel : Nat) → List Char → Nat × Nat × List Char
  | 0, s => (0, 0, s)
  | fuel + 1, s =>
    let (column, s) := skipIndent indent 0 s
    match s with
    | '\n' :: s =>
      let (n, column, s) := blockBreaks indent fuel s
      (n + 1, column, s)
    | s => (0, column, s)

/-- The lines of a block scalar from its content on. Returns the text, whether the last line was
ended, the empty lines after it, and what remains. -/
def blockLines (foldsLines : Bool) (indent : Nat) :
    (fuel : Nat) → (column : Nat) → List Char → List Char × Bool × Nat × List Char
  | 0, _, s => ([], false, 0, s)
  | fuel + 1, column, s =>
    if column ≠ indent || s.isEmpty then ([], false, 0, s)
    else
      let line := s.takeWhile (· != '\n')
      match s.dropWhile (· != '\n') with
      | [] => (line, false, 0, [])
      | _ :: after =>
        let (breaks, column, next) := blockBreaks indent (after.length + 1) after
        if column = indent && !next.isEmpty then
          let joins := foldsLines && !line.head?.any isSpaceOrTab && !next.head?.any isSpaceOrTab
          let separator :=
            if joins then if breaks = 0 then [' '] else [] else ['\n']
          let (text, ended, trailing, rest) := blockLines foldsLines indent fuel column next
          (line ++ separator ++ List.replicate breaks '\n' ++ text, ended, trailing, rest)
        else (line, true, breaks, next)

/-- A block scalar at its indicator, inside a collection that is indented by `indent`. -/
def blockScalar (indent : Int) (c : Cursor) : Read String :=
  match c.rest with
  | [] => none
  | indicator :: s =>
    match blockHeader s with
    | none => none
    | some (chomping, increment, s) =>
      match blockHeaderEnd? s with
      | none => none
      | some s =>
        let least := (max 1 (indent + 1)).toNat
        let width :=
          match increment with
          | some n => least + n - 1
          | none => max least (deepestColumn 0 0 s)
        let (breaks, column, content) := blockBreaks width (s.length + 1) s
        let (text, ended, trailing, rest) :=
          blockLines (indicator == '>') width (content.length + 1) column content
        let ending := if ended && chomping != .strip then ['\n'] else []
        let kept := if chomping = .keep then List.replicate trailing '\n' else []
        let leading := if text.isEmpty && chomping != .keep then [] else List.replicate breaks '\n'
        some (String.ofList (leading ++ text ++ ending ++ kept), c.jumpTo rest)

end UiMarkup.Yaml
