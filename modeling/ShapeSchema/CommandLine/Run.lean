import ShapeSchema.CommandLine.Arguments
import ShapeSchema.CommandLine.Path
import ShapeSchema.Cypher
import ShapeSchema.Document.Json
import ShapeSchema.Dot
import ShapeSchema.Turtle.Reader
import ShapeSchema.Turtle.Writer

/-!
# Running commands

What the commands do. They are written against the few things that they need from the system they
run on, so that they can be run on a disk that is a value as well.

## Main definitions

* `ShapeSchema.CommandLine.Host` — what a command needs: reading and writing files, and printing.
* `ShapeSchema.CommandLine.transform`, `ShapeSchema.CommandLine.validate`,
  `ShapeSchema.CommandLine.cypher` — the commands.
* `ShapeSchema.CommandLine.run` — runs a list of arguments.
-/

namespace ShapeSchema.CommandLine

/-- What reading a file gives. -/
inductive Fetched where
  /-- The file cannot be opened. -/
  | missing
  /-- The file can be opened and not be read. -/
  | unreadable
  /-- The text of the file. -/
  | text (content : String)

/-- What a command needs from the system that it runs on. -/
class Host (m : Type → Type) where
  /-- Reads the file at a path. -/
  fetch : String → m Fetched
  /-- Makes the folder at a path, unless it is there; says whether it is there now. -/
  makeFolder : String → m Bool
  /-- Writes a text to the file at a path; says whether that worked. -/
  store : String → String → m Bool
  /-- Whether something is at a path. -/
  isThere : String → m Bool
  /-- Prints a text. -/
  print : String → m Unit

/-- How a command ends: with a message if it failed, and a status otherwise. -/
abbrev Run (m : Type → Type) := ExceptT String m

/-- How a list of arguments ends. -/
structure Exit where
  /-- The status: zero if all went well. -/
  status : Nat
  /-- The message of a command that failed. -/
  message : Option String := none
  deriving DecidableEq

section

variable {m : Type → Type} [Monad m] [Host m]

/-! ## Files -/

/-- Asks the system. -/
def ask {α : Type} (action : m α) : Run m α := ExceptT.lift action

/-- Writes a text to a file, or fails with a message that begins with the given words. -/
def storeOr (words path content : String) : Run m Unit := do
  if !(← ask (Host.store path content)) then throw (words ++ path)

/-- Makes the folder at a path. If that does not work, it is tried again behind the folder that the
path names before its last part. Every step shortens the path, so that `fuel` above its length is
enough. -/
def makeFoldersWithin (fuel : Nat) (path : String) : m Bool := do
  match fuel with
  | 0 => return false
  | fuel + 1 =>
    if path.isEmpty then return true
    else if ← Host.makeFolder path then return true
    else if ← makeFoldersWithin fuel (Path.parent path) then Host.makeFolder path
    else return false

/-- Makes the folder at a path and those on the way to it; says whether it is there now. -/
def makeFolders (path : String) : m Bool := makeFoldersWithin (path.length + 1) path

/-- Reads the shapes in a file. -/
def loadShapes (file : String) (base : Option String) : Run m Rdf.Graph := do
  match ← ask (Host.fetch file) with
  | .missing => throw ("Failed to open " ++ file)
  | .unreadable => throw ("Failed to parse " ++ file)
  | .text content =>
    match Turtle.readGraph content (base.map Iri.mk) with
    | .error _ => throw ("Failed to parse " ++ file)
    | .ok g => return g

/-- Reads the shapes in a file and runs them. -/
def runFile (file : String) (settings : SchemaSettings) : Run m Transformation.Result := do
  let shapes ← loadShapes file settings.base
  match Transformation.run settings.options file shapes with
  | .error e => throw e.message
  | .ok result => return result

/-! ## Commands -/

/-- The folder that is written to. -/
def OutputSettings.folderFor (output : OutputSettings) (file : String) : String :=
  output.folder.getD (Path.parent file)

/-- Writes what a run gave, under names that begin with the given one. The file of the shapes is
made before it is known whether they can be written. -/
def storeResult (folder stem : String) (output : OutputSettings) (result : Transformation.Result) :
    Run m Unit := do
  let document := Document.ofSchema result.schema
  let path (ending : String) : String := Path.within folder (stem ++ ending)
  storeOr "Failed to create " (path "_pg_schema.json") document.text
  storeOr "Failed to create " (path "_transformed.ttl") ""
  match Turtle.writeGraph result.shapes result.statements.space with
  | .error fault => throw fault.message
  | .ok text => storeOr "Failed to create " (path "_transformed.ttl") text
  if output.cypher then
    storeOr "Failed to write " (path "_schema.cypher") (Cypher.script document)
  if output.dot then
    storeOr "Failed to write " (path "_schema.dot") (Dot.drawing result.schema)

/-- Writes the schema of the shapes in a file. -/
def transform (file : String) (output : OutputSettings) (schema : SchemaSettings) :
    Run m Unit := do
  match Path.stem? file with
  | none => throw (file ++ " has no usable file name")
  | some stem =>
    let folder := output.folderFor file
    if !(← ask (makeFolders folder)) then throw ("Failed to create " ++ folder)
    let result ← runFile file schema
    storeResult folder stem output result

/-- Prints the script of a document, or writes it to a file. -/
def cypher (file : String) (output : Option String) : Run m Unit := do
  match ← ask (Host.fetch file) with
  | .missing | .unreadable => throw ("Failed to read " ++ file)
  | .text content =>
    match Document.ofText content with
    | .error _ => throw (file ++ " is not a property graph schema document")
    | .ok document =>
      match output with
      | some path => storeOr "Failed to write " path (Cypher.script document)
      | none => ask (Host.print (Cypher.script document))

/-- The report of some violations as it is printed: with one line break behind it. -/
def reportOutput (violations : List Violation) : String :=
  match violations with
  | [] => Violation.reportText violations ++ "\n"
  | _ => Violation.reportText violations

/-- Checks the instances in a file against the schema of the shapes in another, and prints a report.
The status says whether there are violations. -/
def validate (file instances : String) (schema : SchemaSettings) : Run m Nat := do
  let result ← runFile file schema
  match ← ask (Host.fetch instances) with
  | .missing => throw ("Failed to open " ++ instances)
  | .unreadable => throw (instances ++ " is not an array of instances")
  | .text content =>
    match Instance.listOfText content with
    | .error _ => throw (instances ++ " is not an array of instances")
    | .ok checked =>
      let violations := result.schema.violationsOfAll checked
      ask (Host.print (reportOutput violations))
      return if violations.isEmpty then 0 else 1

/-- Starts to watch a folder. Waiting for what appears in it is left to the caller. -/
def watch (folder : String) : Run m Unit := do
  if !(← ask (Host.isThere folder)) then throw ("Failed to watch " ++ folder)

/-- Runs a command. -/
def runCommand : Command → Run m Nat
  | .transform file output schema => do
    transform file output schema
    return 0
  | .watch folder _ _ => do
    watch folder
    return 0
  | .cypher file output => do
    cypher file output
    return 0
  | .validate file instances schema => validate file instances schema

/-- The name of the program and its version, as they are printed. -/
def versionLine : String := "shaclpg 0.2.0\n"

/-- Runs a list of arguments. Arguments that ask for nothing end with the status two. -/
def run (arguments : List String) : m Exit := do
  match request? arguments with
  | none => return { status := 2 }
  | some .version =>
    Host.print versionLine
    return { status := 0 }
  | some (.command command) =>
    match ← (runCommand command : Run m Nat).run with
    | .ok status => return { status := status }
    | .error message => return { status := 1, message := some message }

end

end ShapeSchema.CommandLine
