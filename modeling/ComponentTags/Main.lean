import ComponentTags.CommandLine.Run

/-!
# The program

Reads what a run can see from the system, runs the command line and writes what comes of it.
-/

open ComponentTags ComponentTags.CommandLine

/-- The code of the system's answer to reading a directory. -/
def isDirectoryCode : UInt32 := 21

/-- Adds what stands at a place to a tree. -/
def addPlace (tree : FileTree) (place : List String) : IO FileTree := do
  try
    let content ← IO.FS.readBinFile (Path.text ⟨"/", place⟩)
    return { tree with files := tree.files.insert place content.toList }
  catch
    | .inappropriateType _ code _ | .noSuchThing _ code _ | .otherError code _ =>
      if code = isDirectoryCode then return { tree with directories := place :: tree.directories }
      else return tree
    | _ => return tree

/-- Adds what stands at a path and on the way to it. -/
def addPath (tree : FileTree) (path : Path) : IO FileTree :=
  let segments := tree.segments path
  (List.range segments.length).foldlM (fun tree n => addPlace tree (segments.take (n + 1))) tree

/-- The variables of the environment. -/
def readEnvironment : IO Settings.Environment := do
  let bytes ← IO.FS.readBinFile "/proc/self/environ"
  let entries := (String.fromUTF8? bytes).getD ""
  return (entries.splitOn "\x00").filterMap fun entry =>
    match entry.splitOn "=" with
    | name :: value@(_ :: _) => some (name, "=".intercalate value)
    | _ => none

/-- The input to its end. -/
partial def readInput (stream : IO.FS.Stream) (read : ByteArray) : IO ByteArray := do
  let chunk ← stream.read 65536
  if chunk.isEmpty then return read else readInput stream (read ++ chunk)

/-- What a request can see. -/
def readSystem (request : Request) : IO System := do
  let root := Path.ofString (← IO.currentDir).toString
  let tree ← (request.paths root).foldlM addPath ⟨root, [], []⟩
  let input ←
    match request with
    | .compile "-" .. => readInput (← IO.getStdin) .empty
    | _ => pure .empty
  return ⟨tree, input.toList, ← readEnvironment⟩

/-- Writes what a run printed and the files that it changed. -/
def writeOutcome (before : FileTree) (outcome : Outcome) : IO UInt32 := do
  for (place, content) in before.changes outcome.tree do
    IO.FS.writeBinFile (Path.text ⟨"/", place⟩) ⟨content.toArray⟩
  IO.print outcome.streams.out
  IO.eprint outcome.streams.err
  return outcome.exitCode.toUInt32

def main (arguments : List String) : IO UInt32 := do
  let invocation := Invocation.ofArguments arguments
  let system ←
    match invocation with
    | .run _ request => readSystem request
    | _ => pure ⟨⟨⟨"/", []⟩, [], []⟩, [], []⟩
  match runInvocation system invocation with
  | .ok outcome => writeOutcome system.tree outcome
  | .error e =>
    IO.eprintln e.message
    return 1
