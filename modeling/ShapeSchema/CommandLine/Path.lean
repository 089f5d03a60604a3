import ShapeSchema.Text.Split

/-!
# Paths

Paths of files as they are written on a command line.

## Main definitions

* `ShapeSchema.Path.stem?` — the name of a file without its extension.
* `ShapeSchema.Path.parent` — the folder of a file.
* `ShapeSchema.Path.within` — the path of a file in a folder.
-/

namespace ShapeSchema.Path

/-- The parts of a path between its slashes. -/
def parts (path : String) : List String :=
  (List.splitOn '/' path.toList).map String.ofList

/-- Whether a part at the end of a path says nothing: there is none behind a slash, or it is a dot.
-/
def isIdle (part : String) : Bool := part == "" || part == "."

/-- Parts in reverse, without those at the end that say nothing. -/
def trimmed (path : String) : List String := (parts path).reverse.dropWhile isIdle

/-- The name of a file without its extension. A dot at the start begins no extension. -/
def stemOf (name : String) : String :=
  match Text.splitAfterLast? '.' name.toList with
  | none => name
  | some (front, _) =>
    match front.dropLast with
    | [] => name
    | stem => String.ofList stem

/-- The name of the file that a path leads to, without its extension. There is none if the path is
the root or leads upwards at its end. -/
def stem? (path : String) : Option String :=
  match trimmed path with
  | [] | ".." :: _ => none
  | name :: _ => some (stemOf name)

/-- The folder of the file that a path leads to. It is empty if the path is a bare name. -/
def parent (path : String) : String :=
  match (trimmed path).drop 1 with
  | [] => ""
  | reversed =>
    match reversed.dropWhile isIdle with
    | [] => if (parts path).head? == some "." then "." else "/"
    | rest => "/".intercalate rest.reverse

/-- The path of a file in a folder. -/
def within (folder name : String) : String :=
  match folder.toList.getLast? with
  | none => name
  | some '/' => folder ++ name
  | some _ => folder ++ "/" ++ name

end ShapeSchema.Path
