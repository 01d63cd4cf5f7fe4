import FlatLayout.CommandLine.Run

/-!
# The program

Looks at the files that the arguments name, runs `CommandLine.run`, and does what its transcript
says. What is printed and written is decided there, and nothing of it here.

## Main definitions

* `surroundingsOf` — what the program finds when it starts
* `Transcript.perform` — prints and writes what a transcript holds
-/

namespace FlatLayout

/-- The files that a command reads. -/
def Command.inputs : Command → List String
  | .flatten source _ _ _ _ | .inspect source _ _ =>
    source.input :: source.aux ++ source.config.toList

/-- The files that a command writes. -/
def Command.outputs : Command → List String
  | .flatten _ _ output report _ => output.toList ++ report.toList
  | .inspect .. => []

/-- The directory that a file is in. -/
def directoryOf (path : String) : String :=
  match (Text.splitOn '/' path.toList).dropLast with
  | [] => "."
  | [[]] => "/"
  | parts => "/".intercalate (parts.map String.ofList)

/-- The contents of a file, if it can be read. -/
def readFile? (path : String) : IO (Option String) := do
  try return some (← IO.FS.readFile path)
  catch _ => return none

/-- Whether a file or a directory is there. -/
def isThere (path : String) : IO Bool := do
  try
    let _ ← IO.FS.Handle.mk path .read
    return true
  catch _ => return false

/-- Whether the environment asks for styled text. -/
def forcesStyle : IO Bool := do
  match ← IO.getEnv "CLICOLOR_FORCE" with
  | some value => return value ≠ "0"
  | none => return false

/-- What the program finds when it starts: the files it may read, whether there is a place for those
it may write, and whether text is to be styled. -/
def surroundingsOf (args : List String) : IO Surroundings := do
  let (inputs, outputs) := match Arguments.parse args with
    | .ok a => (a.command.inputs, a.command.outputs)
    | .error _ => ([], [])
  let files ← inputs.mapM fun path => do return (path, ← readFile? path)
  let places ← outputs.filterM fun path => isThere (directoryOf path)
  let styled ← forcesStyle
  return ⟨fun path => (files.lookup path).join, places.contains, styled⟩

/-- Leaves behind what a transcript says. A file that cannot be written is a failure. -/
def Transcript.perform (t : Transcript) : IO UInt32 := do
  t.out.forM IO.print
  t.err.forM IO.eprint
  try
    t.files.forM fun (path, text) => IO.FS.writeFile path text
    return t.exitCode
  catch e =>
    IO.eprintln ("[!] " ++ toString e)
    return 1

end FlatLayout

/-- Runs the program with its arguments. -/
def main (args : List String) : IO UInt32 := do
  let env ← FlatLayout.surroundingsOf args
  (FlatLayout.CommandLine.run env args).perform
