/-
The `rql` command.
-/
import ResourceQuery.Command.Run

open ResourceQuery

/-- The standard input, if the arguments ask for it and it is no terminal. -/
def standardInput (args : List String) : IO (Option ByteArray) := do
  let input ← IO.getStdin
  if Command.readsInput args && !(← input.isTty) then
    return some (← input.readBinToEnd)
  else
    return none

def main (args : List String) : IO UInt32 := do
  let outcome := Command.run args (← standardInput args)
  (← IO.getStdout).putStr outcome.output
  (← IO.getStderr).putStr outcome.errorOutput
  return UInt32.ofNat outcome.code
