/-
The command on the real files.
-/
import PixelJava.Command.Run

namespace PixelJava.Command

/-- Reads a stream to its end. -/
partial def readAll (stream : IO.FS.Stream) (seen : ByteArray) : IO ByteArray := do
  let chunk ← stream.read 65536
  if chunk.isEmpty then return seen else readAll stream (seen ++ chunk)

/-- Access to the real files and streams. -/
def realAccess : Access IO where
  readFile path := do
    try
      return some (← IO.FS.readFile path)
    catch _ => return none
  readInput := do
    try
      return String.fromUTF8? (← readAll (← IO.getStdin) .empty)
    catch _ => return none
  writeFile path text := do
    try
      IO.FS.writeFile path text
      return true
    catch _ => return false
  print text := do
    let out ← IO.getStdout
    out.putStr text
    out.flush

end PixelJava.Command

def main (arguments : List String) : IO UInt32 := do
  let outcome ← PixelJava.Command.run PixelJava.Command.realAccess arguments
  let message := outcome.message
  if !message.isEmpty then
    (← IO.getStderr).putStr (if message.endsWith "\n" then message else message ++ "\n")
  return outcome.status
