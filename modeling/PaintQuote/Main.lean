import PaintQuote.CommandLine.Run

/-!
# The program

Runs the command line on the files of the disk.
-/

namespace PaintQuote

open CommandLine

/-- The files of the disk. -/
def disk : Files IO where
  read? file := do
    try
      let text ← IO.FS.readFile file
      pure (some text)
    catch _ => pure none
  write file text := do
    try
      IO.FS.writeFile file text
      pure true
    catch _ => pure false

end PaintQuote

/-- Runs the program. -/
def main (arguments : List String) : IO UInt32 := do
  let outcome ← PaintQuote.CommandLine.run PaintQuote.disk arguments
  IO.print outcome.output
  IO.eprint outcome.messages
  pure outcome.status.toUInt32
