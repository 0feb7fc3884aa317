import WordMachine.Command

/-!
# The program

Reads the file that the command line names, prints the reply and exits with its code.
-/

namespace WordMachine.Command

/-- The bytes of a file, if it can be read. -/
def readBytes (path : String) : IO (Option (List UInt8)) := do
  try
    let bytes ← IO.FS.readBinFile path
    return some bytes.toList
  catch _ =>
    return none

/-- Answers a command line on the standard streams. -/
def serve (args : List String) : IO UInt32 := do
  match ← respond readBytes args with
  | none =>
    IO.eprint (lines (Topic.commands.lines.take 1))
    return 2
  | some reply =>
    IO.print reply.out
    IO.eprint reply.err
    return UInt32.ofNat reply.code

end WordMachine.Command

def main (args : List String) : IO UInt32 := WordMachine.Command.serve args
