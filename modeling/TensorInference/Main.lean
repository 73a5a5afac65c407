import TensorInference.CommandLine.Trial
import TensorInference.Files.Listing
import TensorInference.Server.Identifier

/-!
# The command

The command reads the listing of the files that it may see from standard input, and tries a model
out as its arguments say.
-/

namespace TensorInference.CommandLine

partial def readLines (input : IO.FS.Stream) (text : String) : IO String := do
  let line ← input.getLine
  if line.isEmpty then return text else readLines input (text ++ line)

end TensorInference.CommandLine

open TensorInference

def main (words : List String) : IO UInt32 := do
  let text ← CommandLine.readLines (← IO.getStdin) ""
  match Files.Listing.read (Bytes.ofText text) with
  | .error fault =>
    (← IO.getStderr).putStr ("Error: " ++ fault.message ++ "\n")
    return 1
  | .ok listing =>
    let random ← IO.getRandomBytes 16
    let outcome := CommandLine.run ⟨listing.directory, []⟩
      (Server.Identifier.ofBytes random.toList) words
    (← IO.getStdout).putStr outcome.output
    (← IO.getStderr).putStr outcome.errors
    return UInt32.ofNat outcome.exit
