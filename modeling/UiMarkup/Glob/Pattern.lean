import UiMarkup.Glob.Matcher
import UiMarkup.Text.Blank
import UiMarkup.Text.Split

/-!
# Glob patterns

A pattern is a row of segments between slashes. In a segment `*` stands for any characters, `?` for
one, and brackets for one out of a set; `**` as a whole segment stands for any number of segments. A
pattern without a slash, or with one at its end only, may match at any depth; a slash at the end
restricts it to what lies below a directory. A leading `!` turns the pattern around.
-/

namespace UiMarkup.Glob

/-- Part of a segment. -/
inductive Piece where
  | literal (c : Char)
  /-- One character other than a slash. -/
  | anyChar
  /-- Any number of characters other than slashes. -/
  | anyRun
  /-- One character inside, or outside, all of the ranges. -/
  | set (inside : Bool) (ranges : List (Char × Char))
  deriving Repr, DecidableEq

/-- A segment of a pattern. -/
inductive Segment where
  /-- Any number of segments. -/
  | anyDepth
  /-- One nonempty segment. -/
  | anyName
  | pieces (ps : List Piece)
  deriving Repr, DecidableEq

/-- A pattern: what to do with the paths that it matches, and its segments. -/
structure Pattern where
  /-- The pattern selects paths; otherwise it deselects them. -/
  selects : Bool
  /-- The pattern ended with a slash. -/
  directory : Bool
  segments : List Segment
  deriving Repr, DecidableEq

/-- Why a segment cannot be read. -/
inductive SegmentError where
  /-- A bracket is not closed. The whole pattern is then ignored. -/
  | unclosedSet
  /-- A backslash escapes nothing. -/
  | loneBackslash
  deriving Repr, DecidableEq

/-- The ranges between brackets. A hyphen at the end stands for itself. -/
def setRanges : List Char → List (Char × Char)
  | [] => []
  | [a] => [(a, a)]
  | [a, '-'] => [(a, a), ('-', '-')]
  | a :: '-' :: b :: s => (a, b) :: setRanges s
  | a :: s => (a, a) :: setRanges s

/-- The text of a set after its opening bracket, and what follows the closing one. A closing bracket
that comes first is part of the set. -/
def splitSet? : List Char → Option (List Char × List Char)
  | [] => none
  | c :: s =>
    match s.dropWhile (· != ']') with
    | [] => none
    | _ :: rest => some (c :: s.takeWhile (· != ']'), rest)

theorem length_splitSet?_lt {s body rest : List Char} (h : splitSet? s = some (body, rest)) :
    rest.length < s.length := by
  unfold splitSet? at h
  split at h
  · simp at h
  · next c s =>
    split at h
    · simp at h
    · next x rest' hd =>
      simp only [Option.some.injEq, Prod.mk.injEq] at h
      have := (List.dropWhile_sublist (p := (· != ']')) (l := s)).length_le
      rw [hd] at this
      simp only [List.length_cons] at this ⊢
      rw [← h.2]; omega

/-- The pieces of a segment. -/
def pieces (s : List Char) : Except SegmentError (List Piece) :=
  match s with
  | [] => .ok []
  | '*' :: s => (pieces s).map (.anyRun :: ·)
  | '?' :: s => (pieces s).map (.anyChar :: ·)
  | ['\\'] => .error .loneBackslash
  | '\\' :: c :: s => (pieces s).map (.literal c :: ·)
  | '[' :: s =>
    let inside := s.head? != some '!' && s.head? != some '^'
    match _h : splitSet? (if inside then s else s.tail) with
    | none => .error .unclosedSet
    | some (body, rest) => (pieces rest).map (.set inside (setRanges body) :: ·)
  | c :: s => (pieces s).map (.literal c :: ·)
termination_by s.length
decreasing_by
  · simp
  · simp
  · simp only [List.length_cons]; omega
  · have := length_splitSet?_lt _h
    have := List.length_tail (l := s)
    grind
  · simp

/-- A segment from its text. -/
def segment (s : List Char) : Except SegmentError Segment :=
  if s = ['*', '*'] then .ok .anyDepth
  else if s = ['*'] then .ok .anyName
  else (pieces s).map .pieces

/-- Without the second of two `**` that follow each other. -/
def collapse : List (List Char) → List (List Char)
  | a :: b :: rest =>
    if a = ['*', '*'] ∧ b = ['*', '*'] then collapse (b :: rest) else a :: collapse (b :: rest)
  | segs => segs

/-- The segments of a pattern, anchored and closed. A leading slash anchors the pattern; a pattern
of one segment is free to match at any depth; a slash at the end asks for something below. -/
def anchored (segs : List (List Char)) : List (List Char) :=
  let anyDepth := ['*', '*']
  let segs :=
    match segs with
    | [] :: rest => rest
    | [s] => if s = anyDepth then [s] else [anyDepth, s]
    | [s, []] => if s = anyDepth then [s, []] else [anyDepth, s, []]
    | segs => segs
  let segs := if segs.getLast? = some [] then segs.dropLast ++ [anyDepth] else segs
  collapse segs

/-- Every range of the segments ends at or after its start. -/
def rangesInOrder (segs : List Segment) : Bool :=
  segs.all fun seg =>
    match seg with
    | .pieces ps => ps.all fun p =>
      match p with
      | .set _ ranges => ranges.all fun (low, high) => low ≤ high
      | _ => true
    | _ => true

/-- Reads a pattern. A comment, an empty pattern, a lone slash and a pattern with an unclosed set
are ignored. -/
def Pattern.read (text : String) : Except PatternError (Option Pattern) :=
  let line := text.toList
  let line := if [' ', '\\'].isPrefixOf line.reverse then line else Text.trimEnd line
  if line = [] ∨ line.head? = some '#' ∨ line = ['/'] then .ok none
  else
    let selects := line.head? != some '!'
    let segs := Text.splitOn '/' (if selects then line else line.tail)
    let directory := segs.getLast? == some []
    match anchored segs with
    | [] => .error (.invalid text)
    | segs =>
      match segs.mapM segment with
      | .error .unclosedSet => .ok none
      | .error .loneBackslash => .error (.invalid text)
      | .ok segments =>
        if rangesInOrder segments then .ok (some ⟨selects, directory, segments⟩)
        else .error .reversedRange

end UiMarkup.Glob
