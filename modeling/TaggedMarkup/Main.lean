import TaggedMarkup.CommandLine.Elapsed
import TaggedMarkup.CommandLine.Run

/-!
# The command

Reads the files under the working directory, runs the command on them, prints what it prints and
writes what it writes.
-/

namespace TaggedMarkup.CommandLine

open Files (Location Tree)

/-- The files under an entry of a directory. What is no text is left out. -/
partial def loadEntry (location : Location) (entry : IO.FS.DirEntry) :
    IO (List (Location × String)) := do
  let here := location ++ [entry.fileName]
  if ← entry.path.isDir then
    let mut files := []
    for inner in ← entry.path.readDir do
      files := files ++ (← loadEntry here inner)
    return files
  else
    try
      return [(here, ← IO.FS.readFile entry.path)]
    catch _ => return []

/-- The files under the working directory. What lies elsewhere is left out. -/
def loadTree : IO Tree := do
  let directory ← IO.currentDir
  let home := Tree.locationOf directory.toString
  let mut files := []
  for entry in ← directory.readDir do
    files := files ++ (← loadEntry home entry)
  return { files := files, home := home }

/-- Writes the files that a run has made or changed. -/
def saveTree (before after : Tree) : IO Unit := do
  for (location, text) in after.files do
    if before.text? location != some text then
      IO.FS.createDirAll ("/".intercalate ("" :: location.dropLast))
      IO.FS.writeFile ("/".intercalate ("" :: location)) text

/-- Runs a job, and takes the time. -/
def runTimed (job : Job) : IO Run := do
  let start ← IO.monoNanosNow
  let compiled ← IO.lazyPure fun _ => job.compile
  let stop ← IO.monoNanosNow
  return job.finish (elapsedText (stop - start)) compiled

/-- Runs the command with its arguments. -/
def command (arguments : List String) : IO UInt32 := do
  let tree ← loadTree
  let run ← match plan tree arguments with
    | .error run => pure run
    | .ok job => runTimed job
  for line in run.stderr do
    IO.eprintln line
  IO.print run.stdout
  saveTree tree run.tree
  return run.status.toUInt32

end TaggedMarkup.CommandLine

/-- The entry point. -/
def main (arguments : List String) : IO UInt32 := TaggedMarkup.CommandLine.command arguments
