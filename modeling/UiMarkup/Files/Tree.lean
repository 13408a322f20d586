import UiMarkup.Files.Content
import UiMarkup.Path
import UiMarkup.Text.Offset

/-!
# File trees

The files that a command sees, as a value: directories with what they hold, and files with their
contents. Paths are followed from the root, step by step; two dots lead back, but not above the
root. Systems set a limit to the length of names and of whole paths. What paths lead to that leave
the tree is given apart, and so is what the system refuses.
-/

namespace UiMarkup

/-- A file or a directory with everything in it. -/
inductive FileTree where
  | file (name : String) (content : FileContent)
  | directory (name : String) (entries : List FileTree)
  deriving Repr, Inhabited

namespace FileTree

/-- The name of an entry. -/
def name : FileTree → String
  | file name _ => name
  | directory name _ => name

/-- What stands at the end of a path. -/
inductive Target where
  | file (content : FileContent)
  | directory (entries : List FileTree)
  deriving Repr

/-- Directories that were entered, the innermost first, with what they hold. -/
abbrev Trail := List (String × List FileTree)

/-- The names along a trail, the outermost first. -/
def Trail.names (trail : Trail) : List String :=
  (trail.map Prod.fst).reverse

/-- The entries at the end of a trail that starts at `root`. -/
def Trail.entries (root : List FileTree) : Trail → List FileTree
  | [] => root
  | (_, entries) :: _ => entries

/-- The most bytes that a name can have. -/
def nameLimit : Nat := 255

/-- The most bytes that a path can have. -/
def pathLimit : Nat := 4095

/-- The name is not too long. -/
def nameFits (name : String) : Bool :=
  Text.byteLength name.toList ≤ nameLimit

/-- The path with the given segments is not too long. -/
def pathFits (segments : List String) : Bool :=
  Text.byteLength ("/".intercalate segments).toList ≤ pathLimit

/-- Follows the segments of a path. Gives the names that lead to the target without detours, and the
target. -/
def follow (root : List FileTree) : Trail → List String → Except FileCause (List String × Target)
  | trail, [] => .ok (trail.names, .directory (trail.entries root))
  | trail, segment :: rest =>
    if segment = ".." then
      match trail with
      | [] => .error .missing
      | _ :: trail => follow root trail rest
    else if !nameFits segment then .error .nameTooLong
    else
      match (trail.entries root).find? fun e => e.name == segment with
      | none => .error .missing
      | some (.directory name entries) => follow root ((name, entries) :: trail) rest
      | some (.file name content) =>
        if rest.isEmpty then .ok (trail.names ++ [name], .file content) else .error .notDirectory

/-- Follows the segments of a path to a directory, which is made where it is missing. Gives the
names that lead to it and what it holds, or the segments that are left after one that is in
the way. -/
def ensure (root : List FileTree) :
    Trail → List String → Except (FileCause × List String) Trail
  | trail, [] => .ok trail
  | trail, segment :: rest =>
    if segment = ".." then
      match trail with
      | [] => .error (.missing, rest)
      | _ :: trail => ensure root trail rest
    else if !nameFits segment then .error (.nameTooLong, rest)
    else
      match (trail.entries root).find? fun e => e.name == segment with
      | none => ensure root ((segment, []) :: trail) rest
      | some (.directory name entries) => ensure root ((name, entries) :: trail) rest
      | some (.file _ _) => .error (.exists, rest)

/-- The segments of a path as texts. -/
def segmentsOf (path : String) : List String :=
  (Path.segments path.toList).map String.ofList

/-- What a path leads to in the tree. Absolute paths lead out of it. -/
def target (root : List FileTree) (path : String) : Except FileCause (List String × Target) :=
  if !(Path.root path.toList).isEmpty then .error .missing
  else if !pathFits (segmentsOf path) then .error .nameTooLong
  else follow root [] (segmentsOf path)

/-- The content of the file at a path. -/
def read? (root : List FileTree) (path : String) : Option FileContent :=
  match target root path with
  | .ok (_, .file content) => some content
  | _ => none

/-- The directory at a path: the names that lead to it and what it holds. -/
def directoryAt? (root : List FileTree) (path : String) : Option (List String × List FileTree) :=
  match target root path with
  | .ok (names, .directory entries) => some (names, entries)
  | _ => none

end FileTree

/-- What a look at a path finds. -/
inductive Lookup where
  | missing
  /-- Something stands there that is no file. -/
  | noFile
  | file (content : FileContent)
  /-- The system cannot tell. -/
  | failed (error : FileError)
  deriving Repr, DecidableEq

/-- What stands at a path that does not lead out of the tree. -/
def FileTree.look (root : List FileTree) (path : String) : Lookup :=
  match target root path with
  | .ok (_, .file content) => .file content
  | .ok (_, .directory _) => .noFile
  | .error .nameTooLong => .failed ⟨.nameTooLong, Path.shown path⟩
  | .error _ => .missing

/-- What a tree does not tell: what stands at the paths that lead out of it, and what the system
does not allow. -/
structure Surroundings where
  /-- What stands at a path that leads out of the tree. -/
  look : String → Lookup := fun _ => .missing
  /-- Why the system does not tell what stands at a path, if it does not. -/
  denial? : String → Option FileError := fun _ => none
  /-- Why the system does not let a file be written at a path, if it does not. -/
  refusal? : String → Option FileError := fun _ => none

/-- A file that is written: the names that lead to it, and its text. -/
structure FileWrite where
  names : List String
  text : String
  deriving Repr, DecidableEq

namespace FileWrite

/-- The path of the file. -/
def path (w : FileWrite) : String :=
  "/".intercalate w.names

/-- Writing makes a new file of the tree, or changes one. -/
def changes (root : List FileTree) (w : FileWrite) : Bool :=
  !Path.leaves w.path.toList && FileTree.read? root w.path != some (.bytes w.text.toUTF8.toList)

/-- The file to write at a path whose directory is there. -/
def prepare (root : List FileTree) (path text : String) : Except FileError FileWrite :=
  match FileTree.target root path with
  | .ok (names, .file _) => .ok ⟨names, text⟩
  | .ok (_, .directory _) => .error ⟨.isDirectory, Path.shown path⟩
  | .error .nameTooLong => .error ⟨.nameTooLong, Path.shown path⟩
  | .error _ =>
    let segments := FileTree.segmentsOf path
    match FileTree.target root ("/".intercalate segments.dropLast), segments.getLast? with
    | .ok (names, .directory _), some name => .ok ⟨names ++ [name], text⟩
    | .ok _, _ => .error ⟨.notDirectory, Path.shown path⟩
    | .error cause, _ => .error ⟨cause, Path.shown path⟩

/-- The directory with the given segments, made where it is missing. The whole path is tried first;
only if part of it is missing, the directories are made one by one. -/
def makeDirectory (root : List FileTree) (segments : List String) :
    Except FileError FileTree.Trail :=
  let path := Path.shown ("/".intercalate segments)
  if !FileTree.pathFits segments then .error ⟨.nameTooLong, path⟩
  else
    match FileTree.ensure root [] segments with
    | .ok trail => .ok trail
    | .error (cause, rest) =>
      match FileTree.follow root [] segments with
      | .error .missing =>
        let made := segments.take (segments.length - rest.length)
        .error ⟨cause, Path.shown ("/".intercalate made)⟩
      | .error cause => .error ⟨cause, path⟩
      | .ok _ => .error ⟨cause, path⟩

/-- The file to write at a path whose directory is made if it is missing. -/
def prepareAnew (root : List FileTree) (path text : String) : Except FileError FileWrite :=
  let segments := FileTree.segmentsOf path
  match makeDirectory root segments.dropLast with
  | .error e => .error e
  | .ok trail =>
    if !FileTree.pathFits segments then .error ⟨.nameTooLong, Path.shown path⟩
    else
      match segments.getLast? with
      | none => .error ⟨.isDirectory, Path.shown path⟩
      | some name =>
        if name = ".." then .error ⟨.isDirectory, Path.shown path⟩
        else if !FileTree.nameFits name then .error ⟨.nameTooLong, Path.shown path⟩
        else
          match (trail.entries root).find? fun e => e.name == name with
          | some (.directory _ _) => .error ⟨.isDirectory, Path.shown path⟩
          | _ => .ok ⟨trail.names ++ [name], text⟩

/-- The names along a path that leads out of the tree, after one empty name for each slash of its
root. -/
def namesBeyond (path : String) : List String :=
  (Path.root path.toList).map (fun _ => "") ++ FileTree.segmentsOf path

end FileWrite

end UiMarkup
