import EventQuery.Calendar.Places
import EventQuery.Cli.Run

/-!
The program: reads the files and the standard input that a command needs, runs it,
and writes what it tells.
-/
namespace EventQuery.Cli

open Places

def fileError : IO.Error → FileError
  | .noFileOrDirectory .. => .missing
  | .permissionDenied .. => .denied
  | .inappropriateType _ code _ => if code = 21 then .isDirectory else .notDirectory
  | .userError _ => .notText
  | error => .other (toString error)

def readFile (path : String) : IO (Except FileError String) := do
  try return .ok (← IO.FS.readFile path)
  catch error => return .error (fileError error)

partial def readBytes (stream : IO.FS.Stream) (read : ByteArray) : IO ByteArray := do
  let bytes ← stream.read 65536
  if bytes.isEmpty then return read else readBytes stream (read ++ bytes)

def readInput : IO (Except FileError String) := do
  let bytes ← readBytes (← IO.getStdin) .empty
  match String.fromUTF8? bytes with
  | some text => return .ok text
  | none => return .error .notText

/-- The world as far as a call reads it. -/
def worldOf (call : Invocation) : IO World := do
  let files ← (call.paths.filter (· != "-")).mapM fun path => do return (path, ← readFile path)
  let input ← if call.paths.contains "-" then readInput else pure (.ok "")
  let terminal ← (← IO.getStderr).isTty
  return ⟨fun path => (files.lookup path).getD (.error .missing), input, terminal⟩

def runCommand (words : List String) : IO Outcome := do
  match Invocation.ofWords words with
  | .ok call => return call.run (← worldOf call)
  | .error refusal => return refusal.outcome

end EventQuery.Cli

def main (words : List String) : IO UInt32 := do
  let outcome ← EventQuery.Cli.runCommand words
  IO.print outcome.stdout
  IO.eprint outcome.stderr
  return outcome.code.toUInt32
