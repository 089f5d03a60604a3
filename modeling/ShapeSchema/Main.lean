import ShapeSchema.CommandLine.Run

/-!
# The program

Runs the arguments that the program was started with on the file system.
-/

namespace ShapeSchema

open CommandLine (Fetched Host)

/-- Reads the file at a path. What is no text, or a folder, can be opened and
not be read. -/
def fetchFile (path : String) : IO Fetched := do
  try
    return .text (← IO.FS.readFile path)
  catch problem =>
    match problem with
    | .inappropriateType .. | .userError .. => return .unreadable
    | _ => return .missing

/-- Does something, and says whether that worked. -/
def worked (action : IO Unit) : IO Bool := do
  try
    action
    return true
  catch _ => return false

/-- Whether a folder is at a path, which reading tells. -/
def isFolder (path : String) : IO Bool := do
  try
    let _ ← IO.FS.readFile path
    return false
  catch problem => return problem matches .inappropriateType ..

instance : Host IO where
  fetch path := fetchFile path
  makeFolder path := do
    if ← worked (IO.FS.createDir path) then return true
    else isFolder path
  store path content := worked (IO.FS.writeFile path content)
  isThere path := do
    match ← fetchFile path with
    | .missing => return false
    | _ => return true
  print text := IO.print text

end ShapeSchema

/-- Runs the arguments. -/
def main (arguments : List String) : IO UInt32 := do
  let exit : ShapeSchema.CommandLine.Exit ← ShapeSchema.CommandLine.run arguments
  match exit.message with
  | some message => IO.eprintln ("Error: " ++ message)
  | none => pure ()
  return exit.status.toUInt32
