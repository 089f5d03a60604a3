import ShapeSchema.Iri.Check
import ShapeSchema.Rdf.Graph
import ShapeSchema.Rdf.Vocabulary
import ShapeSchema.Turtle.Token

/-!
# Writing Turtle

Graphs as documents: one line for each prefix, then the triples of each subject together, with a
line for each of its predicates. Identifiers are written as prefixed names where a namespace is at
hand, and numbers and truth values bare.

## Main definitions

* `ShapeSchema.Turtle.Spaces` — the namespaces and their prefixes.
* `ShapeSchema.Turtle.localName?` — the local name of a text behind a namespace.
* `ShapeSchema.Turtle.writeGraph` — the document of a graph.
-/

namespace ShapeSchema.Turtle

open ShapeSchema.Rdf

/-! ## Prefixes -/

/-- Namespaces with their prefixes, longest namespace first. Two prefixes may share one. -/
abbrev Spaces := List (String × String)

/-- Adds a namespace behind the longer ones; among those of one length the prefixes are in order. -/
def Spaces.add (space name : String) : Spaces → Spaces
  | [] => [(space, name)]
  | (s, n) :: rest =>
    if s.utf8ByteSize < space.utf8ByteSize
        || (s.utf8ByteSize == space.utf8ByteSize && name < n) then
      (space, name) :: (s, n) :: rest
    else (s, n) :: Spaces.add space name rest

/-- The namespaces that shapes are written with; `space` is the one of their classes, or empty. -/
def spacesFor (space : String) : Except Iri.Fault Spaces := do
  let spaces := Spaces.add xsdNamespace "xsd"
    (Spaces.add rdfNamespace "rdf" (Spaces.add shNamespace "sh" []))
  if space.isEmpty then return spaces
  else
    Iri.check ⟨space⟩
    return spaces.add space (if space = defaultNamespace then "schema" else "ns")

/-! ## Names -/

/-- The characters of a local name behind its first one. -/
def localTail? : List Char → Option (List Char)
  | [] => some []
  | c :: rest => do
    let tail ← localTail? rest
    if isNameChar c || c == ':' || (c == '.' && !rest.isEmpty) then return c :: tail
    else if isEscapable c then return '\\' :: c :: tail
    else none

/-- A text as a local name, if it can be one. -/
def localName? : List Char → Option (List Char)
  | [] => some []
  | c :: rest => do
    let tail ← localTail? rest
    if isNameStart c || c == ':' || c.isDigit then return c :: tail
    else if isEscapable c then return '\\' :: c :: tail
    else none

/-- An identifier, as a prefixed name where possible. -/
def iriText (spaces : Spaces) (iri : Iri) : String :=
  let name? := spaces.findSome? fun (space, name) => do
    let rest ← List.isPrefixOf? space.toList iri.text.toList
    return name ++ ":" ++ String.ofList (← localName? rest)
  name?.getD (bracketed iri)

/-! ## Terms -/

/-- A text is one number in a notation. -/
def isNumber (kind : NumberKind) (text : List Char) : Bool :=
  match readNumber? text with
  | some (.number k _, []) => k = kind
  | _ => false

/-- A lexical form that stands for itself without quotation marks and datatype. -/
def isBare (value : String) (datatype : Iri) : Bool :=
  if datatype = xsd "boolean" then value == "true" || value == "false"
  else if datatype = xsd "integer" then isNumber .integer value.toList
  else if datatype = xsd "decimal" then isNumber .decimal value.toList
  else if datatype = xsd "double" then isNumber .double value.toList
  else false

/-- A literal. Its datatype is written as a prefixed name where possible, but never the datatype of
tagged texts. -/
def literalText (spaces : Spaces) : Literal → String
  | .other value datatype =>
    if isBare value datatype then value
    else if datatype = Vocabulary.langString then (Literal.other value datatype).text
    else quoted value ++ "^^" ++ iriText spaces datatype
  | literal => literal.text

/-- The beginning of the labels of nodes without a label, which no label of the graph is long
enough to equal. -/
def freshLabel (g : Graph) : String :=
  let length : BlankNode → Nat
    | .named label => label.length
    | .fresh _ => 0
  let longest := g.triples.foldl (fun n t =>
    let s := match t.subject with | .blank b => length b | .iri _ => 0
    let o := match t.object with | .blank b => length b | _ => 0
    max n (max s o)) 0
  String.ofList (List.replicate (longest + 1) 'b')

/-- A blank node. -/
def blankText (fresh : String) : BlankNode → String
  | .named label => "_:" ++ label
  | .fresh number => "_:" ++ fresh ++ number.repr

/-- A term. -/
def termText (spaces : Spaces) (fresh : String) : Term → String
  | .iri iri => iriText spaces iri
  | .blank node => blankText fresh node
  | .literal literal => literalText spaces literal

/-! ## Triples -/

/-- A predicate of a subject with its objects. -/
def predicateText (spaces : Spaces) (fresh : String) (g : Graph) (subject : Subject)
    (predicate : Iri) : String :=
  (if predicate = Vocabulary.type then "a" else iriText spaces predicate) ++ " " ++
    " , ".intercalate ((g.objects subject predicate).map (termText spaces fresh))

/-- The triples of a subject, with a full stop behind the last. -/
def subjectText (spaces : Spaces) (fresh : String) (g : Graph) (subject : Subject) : String :=
  let predicates :=
    ((g.triples.filter (·.subject = subject)).map (·.predicate)).eraseDups
  termText spaces fresh subject.toTerm ++ " " ++
    " ;\n\t".intercalate (predicates.map (predicateText spaces fresh g subject)) ++ " .\n"

/-- The lines of the prefixes. -/
def headLines (spaces : Spaces) : List String :=
  spaces.map fun (space, name) => "@prefix " ++ name ++ ": <" ++ space ++ "> ."

/-- The document of a graph; `space` is the namespace of its classes, or empty. A graph without
triples has an empty document. -/
def writeGraph (g : Graph) (space : String) : Except Iri.Fault String := do
  let spaces ← spacesFor space
  if g.isEmpty then return ""
  else
    let fresh := freshLabel g
    let subjects := (g.triples.map (·.subject)).eraseDups
    return String.join
      ((headLines spaces).map (· ++ "\n") ++ subjects.map (subjectText spaces fresh g))

end ShapeSchema.Turtle
