import UiMarkup.CommandLine.Run

/-!
# The program

Reads the working directory, runs the command line, and writes what comes out.
-/

namespace UiMarkup

/-- What a failure of the system comes to for the path that it is about. -/
def FileCause.ofError (e : IO.Error) : FileCause :=
  match e with
  | .permissionDenied _ number message => .other number.toNat message
  | e => .other 5 e.toString

/-- Reads the content of a file. -/
def FileContent.load (read : IO ByteArray) : IO FileContent := do
  try return .bytes (← read).toList
  catch e => return .unreadable (.ofError e)

/-- Reads a file, or a directory with everything in it. -/
partial def FileTree.load (entry : IO.FS.DirEntry) : IO FileTree := do
  if ← entry.path.isDir then
    let entries ← (← entry.path.readDir).toList.mapM load
    return .directory entry.fileName entries
  else
    return .file entry.fileName (← FileContent.load (IO.FS.readBinFile entry.path))

/-- Looks at the path of a file. -/
def Lookup.load (path : String) : IO Lookup := do
  try return .file (.bytes (← IO.FS.readBinFile path).toList)
  catch e =>
    match e with
    | .inappropriateType .. => return .noFile
    | .permissionDenied .. => return .file (.unreadable (.ofError e))
    | _ => return .missing

/-- Looks at those of the paths that lead out of the working directory. -/
def Surroundings.load (paths : List String) : IO Surroundings := do
  let beyond := paths.filter fun path : String => Path.leaves path.toList
  let found ← beyond.mapM fun path : String => return (path, ← Lookup.load path)
  return { look := fun path => (found.lookup path).getD .missing }

/-- Writes a file, and the directories that lead to it. -/
def FileWrite.perform (w : FileWrite) : IO Unit := do
  if 1 < w.names.length then
    IO.FS.createDirAll ("/".intercalate w.names.dropLast)
  IO.FS.writeFile w.path w.text

/-- Runs a command line in the working directory. Gives the status. -/
def CommandLine.runInDirectory (arguments : List String) : IO UInt32 := do
  let directory ← IO.currentDir
  let files ← (← directory.readDir).toList.mapM FileTree.load
  let surroundings ← Surroundings.load arguments
  let debug := ((← IO.getEnv "TACHC_DEBUG").getD "") != ""
  let session : CommandLine.Session :=
    { directory := directory.toString, files, surroundings, debug }
  let outcome := CommandLine.run session arguments
  (← IO.getStdout).putStr outcome.stdout
  (← IO.getStderr).putStr outcome.stderr
  outcome.writes.forM FileWrite.perform
  match outcome.ending with
  | .status code => return code.toUInt32
  | .fileError e =>
    IO.eprintln e.message
    return 1
  | .patternError _ =>
    IO.eprintln "The pattern cannot be used"
    return 1

end UiMarkup

/-- The program. -/
def main (arguments : List String) : IO UInt32 :=
  UiMarkup.CommandLine.runInDirectory arguments
