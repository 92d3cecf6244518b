import LedgerPost.CommandLine.Run

/-!
# The program

Runs a command line on the files and the environment of the process.
-/

namespace LedgerPost.CommandLine

/-- The result of an action, unless it fails. -/
def attempt (action : IO String) : IO (Option String) := do
  match ← action.toBaseIO with
  | .ok s => return some s
  | .error _ => return none

/-- The files of the process. -/
def processHost : Host IO where
  file path := attempt (IO.FS.readFile path)
  input := attempt do (← IO.getStdin).readToEnd

end LedgerPost.CommandLine

open LedgerPost.CommandLine in
/-- Prints what the command line asks for, and failures apart from it. -/
def main (args : List String) : IO UInt32 := do
  let environment ← Environment.read fun name => IO.getEnv name
  let exit ← run processHost environment args
  IO.print exit.output
  IO.eprint exit.diagnostic
  return exit.status
