import BlockScript.CommandLine

/-!
# The program

Reads the arguments, the environment and the file they name, and prints the answer.
-/

set_option autoImplicit false

open BlockScript

/-- The contents of a file, if it can be read. -/
def BlockScript.CommandLine.readContents (path : String) : IO (Option String) := do
  try
    some <$> IO.FS.readFile path
  catch _ =>
    return none

/-- Answers the command line. -/
def main (args : List String) : IO UInt32 := do
  let environment ← IO.getEnv "BLOCKRUN_MAX_ITERATIONS"
  let contents ← match CommandLine.requiredFile? environment args with
    | some path => CommandLine.readContents path
    | none => pure none
  let response := CommandLine.respond environment args contents
  IO.print response.stdout
  IO.eprint response.stderr
  return response.code.toUInt32
