import UiMarkup.Glob.Pattern

/-!
# Matching globs

A pattern matches a path if it matches some leading part of it that ends at a slash or at the end of
the path: what lies below a matched directory is matched with it. Of several patterns the last one
that matches decides.
-/

namespace UiMarkup.Glob

/-- What a pattern asks of a path, from left to right. -/
inductive Item where
  | piece (p : Piece)
  /-- Any directories at the start, or none. -/
  | leading
  /-- A slash and anything after it, or nothing. -/
  | between
  /-- A slash or the end of the path. -/
  | close
  deriving Repr, DecidableEq

/-- The character fits a piece that stands for one character. -/
def Piece.fits : Piece → Char → Bool
  | literal d, c => c == d
  | anyChar, c => c != '/'
  | anyRun, c => c != '/'
  | set inside ranges, c => ranges.any (fun (low, high) => low ≤ c && c ≤ high) == inside

/-- What can follow a nonempty row of directories; `started` says whether one was entered. -/
def afterDirectories (started : Bool) : List Char → List (List Char)
  | [] => []
  | c :: s =>
    if c = '\n' then []
    else if started && c == '/' then s :: afterDirectories true s
    else afterDirectories true s

/-- What can follow one or more characters of a line. -/
def afterSome : List Char → List (List Char)
  | [] => []
  | c :: s => if c = '\n' then [] else s :: afterSome s

/-- The items match some leading part of the path. -/
def itemsMatch : List Item → List Char → Bool
  | [], _ => true
  | .piece .anyRun :: items, [] => itemsMatch items []
  | .piece .anyRun :: items, c :: s =>
    itemsMatch items (c :: s) || (c != '/' && itemsMatch (.piece .anyRun :: items) s)
  | .piece _ :: _, [] => false
  | .piece p :: items, c :: s => p.fits c && itemsMatch items s
  | .leading :: items, s =>
    itemsMatch items s || (afterDirectories false s).any fun rest => itemsMatch items rest
  | .between :: items, s =>
    itemsMatch items s ||
      (s.head? == some '/' && (afterSome s.tail).any fun rest => itemsMatch items rest)
  | .close :: items, s =>
    match s with
    | [] => itemsMatch items []
    | ['\n'] => itemsMatch items ['\n']
    | c :: rest => c == '/' && itemsMatch items rest
termination_by items s => (items.length, s.length)

/-- The items of the segments; `slash` says whether a slash separates them from what came before. -/
def itemsAfter (slash : Bool) : List Segment → List Item
  | [] => []
  | seg :: rest =>
    let separator := if slash then [.piece (.literal '/')] else []
    let ending := if rest.isEmpty then [Item.close] else []
    match seg with
    | .anyDepth =>
      if rest.isEmpty then [.piece (.literal '/')] else .between :: itemsAfter true rest
    | .anyName =>
      separator ++ [.piece .anyChar, .piece .anyRun] ++ ending ++ itemsAfter true rest
    | .pieces ps => separator ++ ps.map .piece ++ ending ++ itemsAfter true rest

/-- The items of a pattern. -/
def items : List Segment → List Item
  | .anyDepth :: rest => .leading :: itemsAfter false rest
  | segs => itemsAfter false segs

namespace Pattern

/-- The pattern matches the path. -/
def accepts (p : Pattern) (path : List Char) : Bool :=
  match p.segments with
  | [.anyDepth] => if p.directory then path.contains '/' else !path.isEmpty
  | [.anyDepth, .anyName] => !path.isEmpty
  | [.anyDepth, .anyName, .anyDepth] => path.contains '/'
  | segs => itemsMatch (items segs) path

end Pattern

/-- The path without a slash, or else a dot and a slash, in front. -/
def relative : List Char → List Char
  | '/' :: s => s
  | '.' :: '/' :: s => s
  | s => s

/-- The last of the patterns that match the path selects it. -/
def selected (patterns : List Pattern) (path : String) : Bool :=
  let path := relative path.toList
  patterns.foldl (fun verdict p => if p.accepts path then p.selects else verdict) false

/-- The matcher that comes with the program. -/
def Matcher.builtIn : Matcher := fun patterns =>
  (patterns.mapM Pattern.read).map fun read => selected (read.filterMap id)

end UiMarkup.Glob
