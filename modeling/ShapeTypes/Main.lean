import ShapeTypes.Command.Run
import ShapeTypes.Concrete.Listing

/-
  The program.

  The concrete trees of the sources are read from standard
  input.  Only the files that the arguments name are read
  and written.
-/

namespace ShapeTypes

namespace Main

/- The paths that arguments name. -/
def paths
    (arguments : List String) :
    List String :=
  match Invocation.ofArguments arguments with
  | .error _ => []
  | .ok invocation =>
      invocation.config.toList
        ++ match invocation.command with
          | .scan path => [path]
          | .infer path _ => [path]
          | .fix path _ => [path]
          | .selfTest => []

/- What stands at a path. -/
def load
    (path : String) :
    IO Directory := do
  let name := Directory.nameOf (Directory.placeOf path)
  try
    let bytes ← IO.FS.readBinFile path
    match String.fromUTF8? bytes with
    | some text => pure [(name, .text text)]
    | none => pure [(name, .binary bytes.toList)]
  catch
    | .noFileOrDirectory .. => pure []
    | _ => pure [(name ++ "/", .binary [])]

/- Write the files that a run has changed. -/
def save
    (before after : Directory) :
    IO Unit := do
  for (name, content) in after do
    if before.lookup name ≠ some content then
      match content with
      | .text text => IO.FS.writeFile name text
      | .binary _ => pure ()

/- The lines of standard input. -/
partial def readLines
    (input : IO.FS.Stream)
    (lines : List String) :
    IO (List String) := do
  let line ← input.getLine
  if line.isEmpty then
    pure lines.reverse
  else
    readLines input (String.ofList (Text.trimEnd line.toList) :: lines)

end Main

end ShapeTypes

open ShapeTypes in
def main
    (arguments : List String) :
    IO UInt32 := do
  let lines ← Main.readLines (← IO.getStdin) []
  let some table := TreeTable.ofListing? lines
    | do
        IO.eprintln "Error: invalid listing of trees"
        return 1
  let files ← (Main.paths arguments).eraseDups.mapM Main.load
  let outcome := Outcome.ofArguments table files.flatten arguments
  Main.save files.flatten outcome.files
  IO.print outcome.stdout
  IO.eprint outcome.stderr
  return outcome.code.toUInt32
