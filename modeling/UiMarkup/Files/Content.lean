import UiMarkup.Text.Utf8

/-!
# The contents of files

A file holds bytes, and its text is what they encode. A system may also refuse to read a file that
is there. What systems report has a number and a wording.
-/

namespace UiMarkup

/-- Why a path cannot be used. -/
inductive FileCause where
  | missing
  | exists
  | notDirectory
  | isDirectory
  | nameTooLong
  /-- Something that does not follow from which files there are, such as missing rights. -/
  | other (number : Nat) (message : String)
  deriving Repr, DecidableEq

/-- The number of a cause among the errors of operating systems. -/
def FileCause.number : FileCause → Nat
  | missing => 2
  | «exists» => 17
  | notDirectory => 20
  | isDirectory => 21
  | nameTooLong => 36
  | other number _ => number

/-- The wording of a cause. -/
def FileCause.message : FileCause → String
  | missing => "No such file or directory"
  | «exists» => "File exists"
  | notDirectory => "Not a directory"
  | isDirectory => "Is a directory"
  | nameTooLong => "File name too long"
  | other _ message => message

/-- A path that cannot be used, and why. -/
structure FileError where
  cause : FileCause
  path : String
  deriving Repr, DecidableEq

/-- The wording of an error. -/
def FileError.message (e : FileError) : String :=
  "[Errno " ++ toString e.cause.number ++ "] " ++ e.cause.message ++ ": " ++ Text.quoted e.path

/-- What reading a file gives. -/
inductive FileContent where
  | bytes (content : List UInt8)
  /-- The file is there, but it cannot be read. -/
  | unreadable (cause : FileCause)
  deriving Repr, DecidableEq

/-- Why a file has no text. -/
inductive ReadError where
  | file (error : FileError)
  | encoding (error : Text.EncodingError)
  deriving Repr, DecidableEq

/-- The wording of an error. -/
def ReadError.message : ReadError → String
  | file e => e.message
  | encoding e => e.message

/-- The text of a file, which is opened by a path. -/
def FileContent.text (path : String) : FileContent → Except ReadError String
  | bytes content => (Text.readFile content).mapError .encoding
  | unreadable cause => .error (.file ⟨cause, path⟩)

end UiMarkup
