import DocSearch.CommandLine

/-!
# The program

Runs the command line with the arguments and the standard input of the process.
-/

open DocSearch

/-- Everything that the standard input holds; nothing if it is no text. -/
def standardInput : IO String := do
  let bytes ← (← IO.getStdin).readBinToEnd
  return (String.fromUTF8? bytes).getD ""

/-- Run the command line. -/
def main (args : List String) : IO UInt32 := do
  let stdin ← if CommandLine.readsInput args then standardInput else pure ""
  let result := CommandLine.run args stdin
  IO.print result.stdout
  IO.eprint result.stderr
  return result.code
