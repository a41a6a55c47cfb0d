import RenderForest.Outcome
/-!
# Main — the command line

The files that a command line names and its input are read, and what they lead to is written.
-/

namespace RenderForest
namespace CommandLine

def readFile? (path : String) : IO (Option String) := do
  try
    return some (← IO.FS.readFile path)
  catch _ =>
    return none

partial def readBytes (stream : IO.FS.Stream) (sofar : ByteArray) : IO ByteArray := do
  let more ← stream.read 65536
  if more.isEmpty then return sofar else readBytes stream (sofar ++ more)

def readInput? : IO (Option String) := do
  let bytes ← readBytes (← IO.getStdin) ByteArray.empty
  return String.fromUTF8? bytes

def readFiles (r : Request) : IO (List (String × Option String)) :=
  (r.config.toList ++ r.input.toList).mapM fun path => do
    return (path, ← readFile? path)

def run (words : List String) : IO Outcome := do
  match Request.read {} words with
  | .request r =>
    let files ← readFiles r
    let input ← if r.input.isSome then pure none else readInput?
    return Outcome.ofRequest (fun path => (files.lookup path).join) input r
  | reading => return Outcome.ofReading (fun _ => none) none reading

end CommandLine
end RenderForest

def main (words : List String) : IO UInt32 := do
  let outcome ← RenderForest.CommandLine.run words
  IO.print outcome.answer
  IO.eprint outcome.report
  return UInt32.ofNat outcome.code
