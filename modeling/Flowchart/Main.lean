import Flowchart.Command.Run

/-!
# The command line

Reads the files that the words of the command line name, runs the command, and writes and prints
what it leaves.
-/

namespace Flowchart

/-- The variables of the environment that may hold settings. -/
def readEnvironment : IO (List (String × String)) :=
  Settings.usualNames.filterMapM fun name => do
    return (← IO.getEnv name).map fun value => (name, value)

/-- The files among some words; other words are passed over. -/
def readFiles (words : List String) : IO Files :=
  words.filterMapM fun (word : String) => do
    try return some (Path.ofText word, ← IO.FS.readFile word)
    catch _ => return none

/-- Writes the files that are not as they were before. -/
def writeFiles (before after : Files) : IO Unit :=
  for (path, text) in after do
    if before.read? path ≠ some text then
      if 1 < path.length then IO.FS.createDirAll (Path.text path.dropLast)
      IO.FS.writeFile path.text text

/-- Runs the command line and gives back the exit code. -/
def runCommandLine (words : List String) : IO UInt32 := do
  let files ← readFiles words
  let result := Command.run .builtin (Settings.read (← readEnvironment)) files words
  writeFiles files result.files
  IO.print result.output
  IO.eprint result.errors
  if result.defect.isSome then IO.eprintln "The command failed."
  return result.code.toUInt32

end Flowchart

def main (words : List String) : IO UInt32 := Flowchart.runCommandLine words
