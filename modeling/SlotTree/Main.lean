import SlotTree.Command

/-!
# The program

Reads the command line and the file, and prints the answer.
-/

namespace SlotTree

/-- The bytes of a file, if it can be read. -/
def readBytes (path : String) : IO (Option ByteArray) := do
  try
    let bytes ← IO.FS.readBinFile path
    pure (some bytes)
  catch _ => pure none

end SlotTree

/-- Runs one command. -/
def main (args : List String) : IO UInt32 := do
  match SlotTree.Invocation.ofArgs? args with
  | none => pure (UInt32.ofNat SlotTree.Answer.usage.code)
  | some invocation =>
    let contents ← SlotTree.readBytes invocation.path
    let answer := invocation.answer contents
    IO.print answer.output
    pure (UInt32.ofNat answer.code)
