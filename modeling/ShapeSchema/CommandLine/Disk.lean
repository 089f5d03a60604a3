import ShapeSchema.CommandLine.Run
import ShapeSchema.Dict

/-!
# Disks

A disk as a value: texts by their paths. Commands can be run on it, which shows what they read,
write and print.

Of what is outside the folder where a command runs only so much is known as all systems share: the
folders on the way up are there, and a few folders and devices below the root.

## Main definitions

* `ShapeSchema.CommandLine.Disk` — files, folders, and what was printed.
* `ShapeSchema.CommandLine.Disk.Place` — where a path can lead to.
* `ShapeSchema.CommandLine.Disk.locate?` — the place that a path leads to.
* `ShapeSchema.CommandLine.runOnDisk` — runs a list of arguments on a disk.
-/

namespace ShapeSchema.CommandLine

/-- Files and folders around the place where a command runs, and what it printed. -/
structure Disk where
  /-- The texts of the files by their paths, which hold no repeated slashes, no single dots, and two
  dots only on a way up at their start. -/
  files : Dict String
  /-- The folders that were made. -/
  folders : NameSet := {}
  /-- What was printed. -/
  printed : String := ""

namespace Disk

/-! ## Places -/

/-- Where the way to a place begins. -/
inductive Base where
  /-- The folder where the command runs, or one that is some levels above it. -/
  | above (levels : Nat)
  /-- The root of all folders. -/
  | root
  deriving DecidableEq

/-- A place: where the way to it begins, and the names on the way, last first. -/
structure Place where
  /-- The folder where the way begins. -/
  base : Base
  /-- The names on the way, last first. -/
  names : List String := []
  deriving DecidableEq

/-- The place where the way along a path begins. -/
def Place.start (path : String) : Place :=
  if path.toList.head? = some '/' then ⟨.root, []⟩ else ⟨.above 0, []⟩

/-- The folder that a place is in. The root is in itself. -/
def Place.up : Place → Place
  | ⟨base, _ :: names⟩ => ⟨base, names⟩
  | ⟨.above levels, []⟩ => ⟨.above (levels + 1), []⟩
  | ⟨.root, []⟩ => ⟨.root, []⟩

/-- The shortest path of a place. -/
def Place.path (place : Place) : String :=
  "/".intercalate
    ((match place.base with
      | .above levels => List.replicate levels ".."
      | .root => [""]) ++ place.names.reverse)

/-- The device that forgets what is written to it. -/
def nullDevice : Place := ⟨.root, ["null", "dev"]⟩

/-- The devices that an empty text is read from. Nothing is ever typed in. -/
def emptyDevices : List Place := [nullDevice, ⟨.root, ["stdin", "dev"]⟩]

/-- The device that prints what is written to it. -/
def printDevice : Place := ⟨.root, ["stdout", "dev"]⟩

/-- The folders below the root that all systems have. -/
def systemFolders : List String := ["bin", "dev", "etc", "lib", "tmp", "usr", "var"]

/-- Whether a file is at a place. -/
def isFile (d : Disk) (place : Place) : Bool := d.files.contains place.path

/-- Whether a folder is at a place: the way ends where it begins, or the folder was made, or holds a
file, or belongs to the system. -/
def isFolder (d : Disk) (place : Place) : Bool :=
  place.names.isEmpty || d.folders.contains place.path ||
    systemFolders.any (fun name => place = ⟨.root, [name]⟩) ||
    d.files.keys.any fun path => (place.path ++ "/").toList.isPrefixOf path.toList

/-! ## Ways -/

/-- The largest number of bytes in a name. -/
def nameLimit : Nat := 255

/-- The largest number of bytes in a path. -/
def pathLimit : Nat := 4095

/-- Goes through the parts of a path. What is gone through must be a folder. -/
def walk (d : Disk) (place : Place) : List String → Option Place
  | [] => some place
  | part :: parts =>
    if !d.isFolder place then none
    else if Path.isIdle part then d.walk place parts
    else if part = ".." then d.walk place.up parts
    else if nameLimit < part.utf8ByteSize then none
    else d.walk { place with names := part :: place.names } parts

/-- The place that a path leads to. There must be folders on the way to it. -/
def locate? (d : Disk) (path : String) : Option Place :=
  if pathLimit < path.utf8ByteSize then none
  else d.walk (Place.start path) (Path.parts path)

/-! ## Reading and writing -/

/-- What reading the file at a path gives. -/
def fetch (d : Disk) (path : String) : Fetched :=
  match d.locate? path with
  | none => .missing
  | some place =>
    if d.isFolder place then .unreadable
    else if emptyDevices.contains place then .text ""
    else
      match d.files.get? place.path with
      | some content => .text content
      | none => .missing

/-- The disk with a text at a path, if a file can be there. -/
def store? (d : Disk) (path content : String) : Option Disk := do
  let place ← d.locate? path
  if d.isFolder place then none
  else if place = nullDevice then some d
  else if place = printDevice then some { d with printed := d.printed ++ content }
  else if place.base = .root then none
  else some { d with files := d.files.insert place.path content }

/-- The disk with a folder at a path, if one can be there. Slashes at the end of the path do not
count. -/
def makeFolder? (d : Disk) (path : String) : Option Disk := do
  let parts := ((Path.parts path).reverse.dropWhile (· == "")).reverse
  let place ← if pathLimit < path.utf8ByteSize then none else d.walk (Place.start path) parts
  if d.isFolder place then some d
  else if d.isFile place || place.base = .root then none
  else some { d with folders := d.folders.add place.path }

end Disk

/-- Keeps the disk of a step, if it has one, and says whether that is so. -/
def keepDisk (step : Disk → Option Disk) : StateM Disk Bool := do
  match step (← get) with
  | some d => do
    set d
    return true
  | none => return false

instance : Host (StateM Disk) where
  fetch path := return (← get).fetch path
  makeFolder path := keepDisk (·.makeFolder? path)
  store path content := keepDisk (·.store? path content)
  isThere path := return !((← get).fetch path matches .missing)
  print text := modify fun d => { d with printed := d.printed ++ text }

/-- How a list of arguments ends on a disk, and the disk behind it. -/
def runOnDisk (arguments : List String) (d : Disk) : Exit × Disk :=
  (run arguments : StateM Disk Exit).run d

end ShapeSchema.CommandLine
