import ResumableUpload.CommandLine.Program

/-!
# The command line

The outer layer of the program.  It takes the local files that the arguments name into a `Disk`,
runs the program on that value, and puts back what the program changed there.  No server is within
its reach, so a command that is to succeed works with the endpoint within the process.
-/

namespace ResumableUpload.CommandLine

/-- The text of a path below the root. -/
def systemPath (segments : List String) : String :=
  "/" ++ "/".intercalate segments

/-- Takes the nodes along pieces of a path into a disk, as far as the system has them. -/
def takeAlong (directory : List String) (disk : Disk) : List String → IO Disk
  | [] => return disk
  | piece :: rest =>
    if !LocalPath.isStep piece then takeAlong directory disk rest
    else if piece = ".." then takeAlong directory.dropLast disk rest
    else do
      let next := directory ++ [piece]
      let path := (← IO.currentDir) / systemPath next
      if ← path.isDir then takeAlong next (disk.insert next .directory) rest
      else if ← path.pathExists then
        let content ← if rest.any LocalPath.isStep then pure .empty else IO.FS.readBinFile path
        return disk.insert next (.file content.toList)
      else return disk

/-- Takes what a path names into a disk. -/
def takeIn (workingDirectory : List String) (disk : Disk) (path : String) : IO Disk :=
  takeAlong (if path.startsWith "/" then [] else workingDirectory) disk (LocalPath.pieces path)

/-- Puts the nodes back in which a disk differs from the one before. -/
def putBack (before after : Disk) : IO Unit :=
  after.nodes.reverse.forM fun (segments, node) => do
    if before.nodes.lookup segments = some node then return
    match node with
    | .directory => IO.FS.createDirAll (systemPath segments)
    | .file content => IO.FS.writeBinFile (systemPath segments) ⟨content.toArray⟩

end ResumableUpload.CommandLine

open ResumableUpload ResumableUpload.CommandLine in
/-- Runs the program with the words after its name. -/
def main (words : List String) : IO UInt32 := do
  let workingDirectory := (LocalPath.pieces (← IO.currentDir).toString).filter LocalPath.isStep
  let home := (← IO.getEnv "HOME").getD "/tmp"
  let paths :=
    match Arguments.ofWords words with
    | .ok arguments => arguments.localPaths home
    | .error _ => []
  let disk ← paths.foldlM (takeIn workingDirectory) {}
  let (surroundings, result) := run { disk, workingDirectory, home } words
  putBack disk surroundings.disk
  (← IO.getStdout).putStr result.output
  (← IO.getStderr).putStr result.errors
  return UInt32.ofNat result.code
