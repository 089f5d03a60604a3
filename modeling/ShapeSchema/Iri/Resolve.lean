import ShapeSchema.Iri.Check

/-!
# Resolving references

A reference that is read in a document with a base IRI is completed from it, as in RFC 3986, but
only the dot segments that the reference adds to a path of the base are resolved.

## Main definitions

* `ShapeSchema.Iri.Parts` — a reference in its five parts.
* `ShapeSchema.Iri.follow` — the path that segments lead to, with `.` and `..` resolved.
* `ShapeSchema.Iri.resolve` — a reference completed from a base.
-/

namespace ShapeSchema.Iri

/-- The five parts of a reference, without the marks between them. -/
structure Parts where
  /-- The scheme. -/
  scheme : Option (List Char)
  /-- The authority. -/
  authority : Option (List Char)
  /-- The path. -/
  path : List Char
  /-- The query. -/
  query : Option (List Char)
  /-- The fragment. -/
  fragment : Option (List Char)

/-- The text behind a mark, if the mark is there. -/
def behindMark? (mark : Char) : List Char → Option (List Char)
  | [] => none
  | c :: rest => if c = mark then some rest else none

/-- The parts of a reference. -/
def Parts.ofText (text : List Char) : Parts :=
  let (scheme, rest) :=
    match splitScheme? text with
    | some (scheme, rest) => (some scheme, rest)
    | none => (none, text)
  let (authority, rest) :=
    match rest with
    | '/' :: '/' :: rest =>
      let (authority, rest) := breakAt isPathMark rest
      (some authority, rest)
    | _ => (none, rest)
  let (path, rest) := breakAt isTailMark rest
  let (query, rest) := breakAt (· == '#') rest
  ⟨scheme, authority, path, behindMark? '?' query, behindMark? '#' rest⟩

/-- The text of a reference. -/
def Parts.toText (parts : Parts) : List Char :=
  let marked (mark : List Char) (part : Option (List Char)) : List Char :=
    (part.map (mark ++ ·)).getD []
  (parts.scheme.map (· ++ [':'])).getD [] ++ marked ['/', '/'] parts.authority ++ parts.path
    ++ marked ['?'] parts.query ++ marked ['#'] parts.fragment

/-! ## Dot segments -/

/-- The directory above a directory. A directory is a path that is empty or ends with a slash;
`rooted` says that there is an authority, so that it never becomes empty. -/
def parent (rooted : Bool) (directory : List Char) : List Char :=
  match Text.splitAfterLast? '/' directory.dropLast with
  | some (above, _) => above
  | none => if rooted then ['/'] else []

/-- A path that would be taken for an authority and a path, since it has no authority before it and
begins with two slashes. -/
def isAmbiguous (rooted : Bool) (path : List Char) : Bool :=
  !rooted && path.take 2 == ['/', '/']

/-- The segments `.` and `..`, which name directories. -/
def isDots (segment : List Char) : Bool := segment == ['.'] || segment == ['.', '.']

/-- The path that one segment leads to from a directory. -/
def enter (rooted : Bool) (directory segment : List Char) : List Char :=
  if segment = ['.'] then directory
  else if segment = ['.', '.'] then parent rooted directory
  else directory ++ segment

/-- The path that segments lead to from a directory; `none` if it is ambiguous behind one of the
segments. -/
def follow (rooted : Bool) (directory : List Char) :
    (segments : List (List Char)) → Option (List Char)
  | [] => some directory
  | segment :: rest =>
    let path := enter rooted directory segment
    if isAmbiguous rooted path then none
    else if rest.isEmpty then some path
    else follow rooted (if isDots segment then path else path ++ ['/']) rest

/-! ## Completing references -/

/-- There is an authority. -/
def Parts.isRooted (parts : Parts) : Bool := parts.authority.isSome

/-- The directory of a path: the path up to its last slash. -/
def Parts.directory (parts : Parts) : List Char :=
  match Text.splitAfterLast? '/' parts.path with
  | some (above, _) => above
  | none => if parts.isRooted then ['/'] else []

/-- A reference completed from a base. Dot segments are resolved where the path of the reference
is put behind a directory of the base; those of the directory stay, and so do those of a
reference with a scheme or an authority. -/
def Parts.resolve? (base reference : Parts) : Option Parts :=
  if reference.scheme.isSome then some reference
  else if reference.isRooted then some { reference with scheme := base.scheme }
  else
    let onto (directory path : List Char) : Option Parts :=
      (follow base.isRooted directory (List.splitOn '/' path)).map fun path =>
        { reference with scheme := base.scheme, authority := base.authority, path := path }
    match reference.path with
    | [] =>
      some
        { base with
          query := reference.query.orElse fun _ => base.query
          fragment := reference.fragment }
    | '/' :: path => onto ['/'] path
    | path => onto base.directory path

/-- The IRI that a reference stands for, or its fault. Without a base the reference has to be an
IRI itself. -/
def resolve (base : Option Iri) (reference : List Char) : Except Fault Iri :=
  match base with
  | none => do
    checkText true reference
    return ⟨String.ofList reference⟩
  | some base => do
    checkReference reference
    match (Parts.ofText base.text.toList).resolve? (Parts.ofText reference) with
    | some parts => return ⟨String.ofList parts.toText⟩
    | none => throw .doubleSlash

end ShapeSchema.Iri
