import ActionAtlas.CommandLine.Run

/-!
The program on the files of a machine.

Folders are not listed here. For `scan` the names of the files there are come on standard input,
one a line as seen from the current folder; a name that ends in a slash is a folder's.
-/

namespace ActionAtlas.Main

def succeeds (action : IO Unit) : IO Bool := do
  try
    action
    return true
  catch _ => return false

def readText (path : List UInt8) : IO (Option String) := do
  match Text.ofBytes? path with
  | some path =>
    try
      let text ← IO.FS.readFile path
      return some text
    catch _ => return none
  | none => return none

partial def readNames (stream : IO.FS.Stream) : IO (List String) := do
  let line ← stream.getLine
  if line.isEmpty then return []
  let name := String.ofList (Text.dropReturn (line.toList.filter (· ≠ '\n')))
  return name :: (← readNames stream)

def readTree : IO FileTree := do
  let names ← readNames (← IO.getStdin)
  let files ← names.mapM fun name => do return (name, (← readText (Text.bytes name)).getD "")
  return FileTree.ofTexts files

def storage : Storage IO :=
  { read := readText
    scan := fun heeding path => do return (← readTree).scan heeding path
    makeFolders := fun path => succeeds (IO.FS.createDirAll path)
    save := fun path text => succeeds (IO.FS.writeFile path text) }

end ActionAtlas.Main

open ActionAtlas in
def main (arguments : List String) : IO UInt32 := do
  let values ← Settings.variableNames.mapM fun name => do return (name, ← IO.getEnv name)
  let settings := Settings.ofEnvironment fun name => (values.lookup name).join
  let outcome ← CommandLine.run Main.storage settings arguments
  IO.print outcome.output
  if let some failure := outcome.failure? then IO.eprintln ("Error: " ++ failure.message)
  return UInt32.ofNat outcome.exitCode
