import UiMarkup.Text.Split

/-!
# Paths

A path is read as its root and its segments. Empty segments and single dots are dropped. The root of
an absolute path is one slash, except that exactly two leading slashes are a root of their own.
-/

namespace UiMarkup.Path

/-- The segments of a path, without empty ones and single dots. -/
def segments (path : List Char) : List (List Char) :=
  (Text.splitOn '/' path).filter fun s => s != [] && s != ['.']

/-- The root of a path, empty if the path is relative. -/
def root (path : List Char) : List Char :=
  match path.takeWhile (· == '/') with
  | [] => []
  | ['/', '/'] => ['/', '/']
  | _ => ['/']

/-- The root of a path, if it has one, and its segments. -/
def parts (path : List Char) : List (List Char) :=
  match root path with
  | [] => segments path
  | r => r :: segments path

/-- The last segment of a path, or nothing at all. -/
def name (path : String) : String :=
  String.ofList ((segments path.toList).getLast?.getD [])

/-- The part of a name from its last dot on, if the dot is neither the first nor the last
character. -/
def suffixOf (name : List Char) : List Char :=
  let tail := name.reverse.takeWhile (· != '.')
  if tail.isEmpty || name.length ≤ tail.length + 1 then [] else '.' :: tail.reverse

/-- The suffix of the last segment of a path. -/
def suffix (path : String) : String :=
  String.ofList (suffixOf ((segments path.toList).getLast?.getD []))

/-- The path without what does not count in it; the empty path is a single dot. -/
def shown (path : String) : String :=
  match parts path.toList with
  | [] => "."
  | _ =>
    String.ofList (root path.toList ++ ['/'].intercalate (segments path.toList))

/-- The segments lead above the directory that is `depth` levels above the one where they start. -/
def climbs : (depth : Nat) → List (List Char) → Bool
  | _, [] => false
  | depth, s :: rest =>
    if s = ['.', '.'] then
      match depth with
      | 0 => true
      | depth + 1 => climbs depth rest
    else climbs (depth + 1) rest

/-- The path leads out of the directory in which it is followed: it is absolute, or two dots lead
above that directory. -/
def leaves (path : List Char) : Bool :=
  !(root path).isEmpty || climbs 0 (segments path)

/-- The path with backslashes read as slashes. -/
def normalise (path : List Char) : List Char :=
  path.map fun c => if c = '\\' then '/' else c

end UiMarkup.Path
