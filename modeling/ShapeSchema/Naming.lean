import ShapeSchema.Text.Split

/-!
# Names

An IRI is cut into a namespace and a local name; a local name becomes the type of a relationship
in upper case, and a type becomes a local name in camel case again.

## Main definitions

* `ShapeSchema.Naming.localName`, `ShapeSchema.Naming.namespaceOf` — the two parts of an IRI.
* `ShapeSchema.Naming.upperSnakeCase`, `ShapeSchema.Naming.flatUpperCase` — a name in upper case,
  with or without cuts inside camel case.
* `ShapeSchema.Naming.lowerCamelCase` — words joined in camel case.

Only ASCII letters and digits count as letters and digits; every other character separates words.
-/

namespace ShapeSchema.Naming

/-! ## The two parts of an IRI -/

/-- The namespace and the local name of an IRI: it is cut behind its last `#`, without one behind
its last `/`, and without either the whole of it is the local name. -/
def cut (iri : List Char) : List Char × List Char :=
  match Text.splitAfterLast? '#' iri with
  | some parts => parts
  | none =>
    match Text.splitAfterLast? '/' iri with
    | some parts => parts
    | none => ([], iri)

/-- The local name of an IRI. -/
def localName (iri : String) : String :=
  String.ofList (cut iri.toList).2

/-- The namespace of an IRI: what stands before its local name. -/
def namespaceOf (iri : String) : String :=
  String.ofList (cut iri.toList).1

/-! ## Relationship types -/

/-- ASCII letters, digits and underscores. -/
def isWordChar (c : Char) : Bool := c.isAlphanum || c == '_'

/-- A camel-case word begins at `c` when an upper-case letter follows a lower-case letter or a
digit. -/
def beginsWord (previous : Option Char) (c : Char) : Bool :=
  c.isUpper && previous.any fun p => p.isLower || p.isDigit

/-- Appends one character of a name to a type that is kept in reverse. `cutsWords` says whether
camel-case words are cut apart. A separator writes one underscore at most and none at the
beginning. -/
def typeStep (cutsWords : Bool) (previous : Option Char) (reversed : List Char) (c : Char) :
    List Char :=
  if c.isAlphanum then
    c.toUpper :: (if cutsWords && beginsWord previous c then '_' :: reversed else reversed)
  else
    match reversed with
    | [] => []
    | last :: _ => if last = '_' then reversed else '_' :: reversed

/-- The type of a name, in reverse, behind what `previous` and `reversed` record. -/
def typeReversed (cutsWords : Bool) : Option Char → List Char → List Char → List Char
  | _, reversed, [] => reversed
  | previous, reversed, c :: rest =>
    typeReversed cutsWords (some c) (typeStep cutsWords previous reversed c) rest

/-- The type of a name: its words in upper case, joined by single underscores. -/
def typeOf (cutsWords : Bool) (name : List Char) : List Char :=
  ((typeReversed cutsWords none [] name).dropWhile (· == '_')).reverse

/-- `memberOf` becomes `MEMBER_OF`. -/
def upperSnakeCase (name : String) : String :=
  String.ofList (typeOf true name.toList)

/-- `memberOf` becomes `MEMBEROF`. -/
def flatUpperCase (name : String) : String :=
  String.ofList (typeOf false name.toList)

/-! ## Camel case -/

/-- The first letter of a word in upper case. -/
def capitalize : List Char → List Char
  | [] => []
  | c :: rest => c.toUpper :: rest

/-- Words in lower case, all but the first of them capitalized. -/
def camelWords : List (List Char) → List Char
  | [] => []
  | word :: words =>
    word.map Char.toLower ++ (words.map fun w => capitalize (w.map Char.toLower)).flatten

/-- `MEMBER_OF` becomes `memberOf`. Empty words are passed over. -/
def lowerCamelCase (name : String) : String :=
  String.ofList (camelWords ((List.splitOn '_' name.toList).filter (· ≠ [])))

/-! ## Basic lemmas -/

/-- **Cutting loses nothing.** -/
theorem cut_append (iri : List Char) : (cut iri).1 ++ (cut iri).2 = iri := by
  unfold cut
  split
  · next h => exact Text.append_of_splitAfterLast? h
  · split
    · next h => exact Text.append_of_splitAfterLast? h
    · rfl

end ShapeSchema.Naming
