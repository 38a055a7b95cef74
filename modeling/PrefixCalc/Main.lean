import PrefixCalc.CommandLine

/-!
# PrefixCalc.Main

The program: it writes what the command line asks for, and its exit code tells whether that was
possible.
-/

def main (args : List String) : IO UInt32 := do
  let outcome := PrefixCalc.Outcome.ofStrings args
  (← IO.getStdout).putStr outcome.stdout
  (← IO.getStderr).putStr outcome.stderr
  return outcome.code
