import LinePatch.Command.Snapshot

/-!
# The command

Reads the places that a command line leads to, executes it on them, and does to the disk what the
execution did to its tree.
-/

namespace LinePatch.Command

/-- A place as a path of the disk. -/
def diskPath (place : Place) : String :=
  "/" ++ Path.ofNames place

/-- What stands at a place of the disk, the parent of which is a directory. At a name that the disk
does not allow there is nothing. -/
def probe (place : Place) : IO (Option Node) := do
  try
    return some (.file (← IO.FS.readBinFile (diskPath place)))
  catch
    | .noFileOrDirectory .. | .invalidArgument .. => return none
    | .inappropriateType .. => return some .directory
    | error => throw error

/-- Adds what stands at a place, unless it is known or its parent is not a directory. -/
def capture (tree : Tree) (place : Place) : IO Tree := do
  if (tree.node? place).isSome then return tree
  else
    match tree.node? place.dropLast with
    | some .directory =>
      match ← probe place with
      | some node => return tree.put place node
      | none => return tree
    | _ => return tree

/-- Adds what stands on the way to paths. A place may be made on the way, so that the places after
it count even if there is nothing yet. -/
def captureRoutes (tree : Tree) (paths : List String) : IO Tree :=
  (paths.flatMap (Tree.route tree.home)).foldlM capture tree

/-- Does a piece of work on the disk. A file is replaced as a whole, by one that is written
beside it. -/
def perform : Tree.Work → IO Unit
  | .makeDirectory place => IO.FS.createDir (diskPath place)
  | .writeFile place content => do
    let beside := diskPath place ++ ".new"
    IO.FS.writeBinFile beside content
    IO.FS.rename beside (diskPath place)
  | .removeFile place => IO.FS.removeFile (diskPath place)

/-- Reads a stream to its end. -/
partial def readAll (stream : IO.FS.Stream) (read : ByteArray) : IO ByteArray := do
  let more ← stream.read 65536
  if more.isEmpty then return read else readAll stream (read ++ more)

/-- Executes a command line on the disk. -/
def execute (invocation : Invocation) : IO UInt32 := do
  let home := (Path.names (toString (← IO.currentDir))).filter (!Path.staysHere ·)
  let standardInput ←
    if invocation.request.readsStandardInput then readAll (← IO.getStdin) .empty
    else pure .empty
  let tree ← captureRoutes ⟨home, []⟩ ("." :: invocation.request.sources)
  let tree ← captureRoutes tree (invocation.request.targets standardInput tree)
  let (report, after) := invocation.execute standardInput tree
  (tree.difference after).forM perform
  let standardError ← IO.getStderr
  report.standardError.forM standardError.putStrLn
  IO.print report.standardOutput
  return UInt32.ofNat report.exitCode

end LinePatch.Command

def main (arguments : List String) : IO UInt32 := do
  match LinePatch.Invocation.ofArguments? arguments with
  | some invocation =>
    try
      LinePatch.Command.execute invocation
    catch error =>
      IO.eprintln ("error: " ++ toString error)
      return 1
  | none =>
    IO.eprintln "error: usage: (apply | check | detect) [options]"
    return 2
