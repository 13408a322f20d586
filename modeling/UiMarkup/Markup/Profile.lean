/-!
# Grammar profiles

Ordinary source files use the plain profile, in which only the known components are recognised at
top level. Component-variant files, whose name ends in `.tui.ts`, `.tui.tsx`, `.tui.js` or
`.tui.jsx` in any case, use the extended profile: `$` may occur in identifiers, references may be
dotted, and any capitalised name starts a component.
-/

namespace UiMarkup

/-- The variant of the markup grammar. -/
inductive Profile where
  | plain
  | extended
  deriving Repr, DecidableEq

namespace Profile

/-- The name of the profile. -/
def name : Profile → String
  | plain => "plain"
  | extended => "extended"

/-- The profile of the given name. -/
def ofName? : String → Option Profile
  | "plain" => some plain
  | "extended" => some extended
  | _ => none

/-- `c` may start an identifier. -/
def startsIdentifier (p : Profile) (c : Char) : Bool :=
  c.isAlpha || c == '_' || (p == extended && c == '$')

/-- `c` may continue an identifier. -/
def continuesIdentifier (p : Profile) (c : Char) : Bool :=
  c.isAlphanum || c == '_' || (p == extended && c == '$')

/-- `c` is the given lowercase letter in some case: the long s counts as an s, and the dotted
capital and the dotless small i count as an i. -/
def sameLetter (letter c : Char) : Bool :=
  c.toLower == letter || (letter == 's' && c.toNat == 0x17f) ||
    (letter == 'i' && (c.toNat == 0x130 || c.toNat == 0x131))

/-- `s` starts with one letter out of each of the given sets, up to case. -/
def startsWithLetters : List (List Char) → List Char → Bool
  | [], _ => true
  | _ :: _, [] => false
  | set :: sets, c :: s => set.any (sameLetter · c) && startsWithLetters sets s

/-- The letters of `.tui.ts` and `.tui.js`, from the last to the first. -/
def variantEnding : List (List Char) :=
  [['s'], ['j', 't'], ['.'], ['i'], ['u'], ['t'], ['.']]

/-- The reversed file name ends as a component variant does. -/
def isVariantReversed (s : List Char) : Bool :=
  startsWithLetters variantEnding s ||
    match s with
    | c :: rest => sameLetter 'x' c && startsWithLetters variantEnding rest
    | [] => false

/-- The profile under which a file is read; one line end after the name is ignored. -/
def ofFilename (filename : String) : Profile :=
  let reversed := filename.toList.reverse
  let reversed := if reversed.head? == some '\n' then reversed.tail else reversed
  if isVariantReversed reversed then extended else plain

end Profile

end UiMarkup
