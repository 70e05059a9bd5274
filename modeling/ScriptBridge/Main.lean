import ScriptBridge.CommandLine.Program

/-!
# The command line

The program works on a picture of its working directory and of the way that leads
there from the root.  The picture is taken before the run, and what the run has
changed is written back after it.
-/

namespace ScriptBridge

namespace Main

/-- The absolute path of a location. -/
def placeOf (location : FileLocation) : String :=
  "/" ++ relativeText location

/-- The directories that lead to a working directory. -/
def wayTo (working : FileLocation) : FileSystem :=
  (List.range working.length).foldl
    (fun files above => files.put (working.take (above + 1)) .directory) { working }

/-- Take a picture of a directory; files that do not hold text are left out. -/
partial def picture (location : FileLocation) (files : FileSystem) : IO FileSystem := do
  let mut seen := files
  for entry in ← (← IO.FS.realPath (placeOf location)).readDir do
    let inner := location ++ [entry.fileName]
    if ← entry.path.isDir then
      seen ← picture inner (seen.put inner .directory)
    else
      match ← (IO.FS.readFile entry.path).toBaseIO with
      | .ok text => seen := seen.put inner (.file text)
      | .error _ => pure ()
  return seen

/-- Write an entry of a picture. -/
def develop (location : FileLocation) : FileEntry → IO Unit
  | .directory => IO.FS.createDirAll (placeOf location)
  | .file text => IO.FS.writeFile (placeOf location) text

/-- Write what has changed between two pictures. -/
def writeChanges (before after : FileSystem) : IO Unit :=
  for (location, entry) in after.entries.entries do
    unless before.entry? location = some entry do
      develop location entry

end Main

end ScriptBridge

/-- Run the program in its working directory. -/
def main (words : List String) : IO UInt32 := do
  let output ← IO.getStdout
  let working := (← IO.currentDir).components.filter (!·.isEmpty)
  let before ← ScriptBridge.Main.picture working (ScriptBridge.Main.wayTo working)
  let (result, after) := ScriptBridge.Program.run (← output.isTty) words before
  ScriptBridge.Main.writeChanges before after
  output.putStr result.output
  (← IO.getStderr).putStr result.complaints
  return result.code.toUInt32
