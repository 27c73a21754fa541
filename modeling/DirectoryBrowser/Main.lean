import DirectoryBrowser.CommandLine.Description
import DirectoryBrowser.CommandLine.Run

/-!
# The program

The command line works on a machine that is described on standard input, so
that a command can be tried out before anything is touched.
-/

namespace DirectoryBrowser

/-- Everything up to the end of a stream. -/
partial def readAll (input : IO.FS.Stream) (sofar : String) : IO String := do
  let line ← input.getLine
  if line.isEmpty then return sofar else readAll input (sofar ++ line)

end DirectoryBrowser

open DirectoryBrowser in
def main (arguments : List String) : IO UInt32 := do
  match MachineDescription.parse (← readAll (← IO.getStdin) "") with
  | none =>
    IO.eprintln "bw: cannot read the description of the machine"
    return 1
  | some machine =>
    let (report, _) := CommandLine.execute machine arguments
    IO.print report.output
    report.message.forM fun message ↦ IO.eprintln message
    return report.code.toUInt32
