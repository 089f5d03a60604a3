import ShapeSchema.Iri.Resolve
import ShapeSchema.Rdf.Graph
import ShapeSchema.Rdf.Vocabulary
import ShapeSchema.Turtle.Token

/-!
# Reading Turtle

Documents of Turtle 1.1 as graphs. Labels of blank nodes are kept; the nodes of brackets and
lists are made up.

## Main definitions

* `ShapeSchema.Turtle.Reading` — what is known at some place of a document.
* `ShapeSchema.Turtle.readGraph` — the graph of a document.
-/

namespace ShapeSchema.Turtle

open ShapeSchema.Rdf

/-- Why a document has no graph. -/
inductive Fault where
  /-- The base that was given is no IRI. -/
  | invalidBase (iri : Iri) (fault : Iri.Fault)
  /-- The document breaks the rules of the language. -/
  | malformed
  deriving DecidableEq

/-- What is said about a base that is no IRI. -/
def invalidBaseMessage (iri : Iri) (fault : Iri.Fault) : String :=
  "Invalid base IRI '" ++ iri.text ++ "': " ++ fault.message

/-- What is known at some place of a document. -/
structure Reading where
  /-- What is still to be read. -/
  tokens : List Token
  /-- The base for references. -/
  base : Option Iri
  /-- The namespaces of the prefixes, latest first. -/
  spaces : List (List Char × List Char)
  /-- The number of blank nodes that were made up. -/
  blanks : Nat
  /-- The triples that were read, latest first. -/
  triples : List Triple

/-- Steps of reading, each of which may find that the document is malformed. -/
abbrev Reader := StateT Reading Option

namespace Reader

/-- The next token, which is taken. -/
def next : Reader Token := do
  let r ← get
  match r.tokens with
  | [] => failure
  | t :: rest =>
    set { r with tokens := rest }
    return t

/-- Takes the next token if it is the given mark. -/
def tryMark (c : Char) : Reader Bool := do
  let r ← get
  match r.tokens with
  | .mark d :: rest =>
    if c = d then
      set { r with tokens := rest }
      return true
    else return false
  | _ => return false

/-- Takes the next token, which has to be the given mark. -/
def mark (c : Char) : Reader Unit := do
  if ← tryMark c then return () else failure

/-- Whether the next token is one of the given marks, or there is none. -/
def atMark (marks : List Char) : Reader Bool := do
  match (← get).tokens with
  | [] => return true
  | .mark c :: _ => return marks.contains c
  | _ => return false

/-- A blank node that was not used before. -/
def freshBlank : Reader BlankNode :=
  modifyGet fun r => (.fresh r.blanks, { r with blanks := r.blanks + 1 })

/-- Notes a triple. -/
def emit (subject : Subject) (predicate : Iri) (object : Term) : Reader Unit :=
  modify fun r => { r with triples := ⟨subject, predicate, object⟩ :: r.triples }

/-! ## Terms -/

/-- A reference as an identifier. -/
def resolved (text : List Char) : Reader Iri := do
  match Iri.resolve (← get).base text with
  | .ok iri => return iri
  | .error _ => failure

/-- A prefixed name as an identifier. Its syntax is checked only if the name is doubtful, or if the
namespace has no path, so that the name may belong to an authority. -/
def expanded (space : List Char) (name : LocalName) : Reader Iri := do
  match (← get).spaces.lookup space with
  | none => failure
  | some start =>
    let iri : Iri := ⟨String.ofList (start ++ name.text)⟩
    let toCheck := name.isDoubtful || (Iri.Parts.ofText start).path.isEmpty
    if toCheck && !decide iri.IsValid then failure else return iri

/-- The identifier that a token stands for. -/
def iriOf : Token → Reader Iri
  | .reference text => resolved text
  | .prefixed space name => expanded space name
  | _ => failure

/-- A property: an identifier, or the word `a`. -/
def verb : Reader Iri := do
  match ← next with
  | .word ['a'] => return Vocabulary.type
  | token => iriOf token

/-- A quoted text with what follows it. Only a language tag gives the datatype of tagged texts. -/
def literalOf (text : List Char) : Reader Literal := do
  let value := String.ofList text
  let r ← get
  match r.tokens with
  | .atWord tag :: rest =>
    if LanguageTag.isWellFormed tag then
      set { r with tokens := rest }
      return .tagged value (String.ofList (tag.map Char.toLower))
    else failure
  | .carets :: rest =>
    set { r with tokens := rest }
    let datatype ← iriOf (← next)
    if datatype = Vocabulary.langString then failure else return .typed value datatype
  | _ => return .plain value

/-- The datatype of a notation of numbers. -/
def NumberKind.datatype : NumberKind → Iri
  | .integer => xsd "integer"
  | .decimal => xsd "decimal"
  | .double => xsd "double"

/-- A term that is neither a list nor in brackets. -/
def simpleTerm : Token → Reader Term
  | .label name => return .blank (.named (String.ofList name))
  | .string text => do return .literal (← literalOf text)
  | .number kind text => return .literal (.typed (String.ofList text) (NumberKind.datatype kind))
  | .word text =>
    if text == "true".toList || text == "false".toList then
      return .literal (.typed (String.ofList text) (xsd "boolean"))
    else failure
  | token => do return .iri (← iriOf token)

/-! ## Triples

The functions call each other at most four times before a token is taken, which gives the fuel. -/

mutual

/-- A value. -/
def object (fuel : Nat) : Reader Term :=
  match fuel with
  | 0 => failure
  | fuel + 1 => do
    match ← next with
    | .mark '[' =>
      let node ← freshBlank
      if ← tryMark ']' then return .blank node
      properties fuel (.blank node)
      mark ']'
      return .blank node
    | .mark '(' => list fuel
    | token => simpleTerm token

/-- The rest of a list. -/
def list (fuel : Nat) : Reader Term :=
  match fuel with
  | 0 => failure
  | fuel + 1 => do
    if ← tryMark ')' then return .iri Vocabulary.nil
    let node ← freshBlank
    emit (.blank node) Vocabulary.first (← object fuel)
    emit (.blank node) Vocabulary.rest (← list fuel)
    return .blank node

/-- The values of a property, with commas between them. -/
def objects (fuel : Nat) (subject : Subject) (predicate : Iri) : Reader Unit :=
  match fuel with
  | 0 => failure
  | fuel + 1 => do
    emit subject predicate (← object fuel)
    if ← tryMark ',' then objects fuel subject predicate

/-- The properties of a subject, with semicolons between them. -/
def properties (fuel : Nat) (subject : Subject) : Reader Unit :=
  match fuel with
  | 0 => failure
  | fuel + 1 => do
    objects fuel subject (← verb)
    furtherProperties fuel subject

/-- The properties behind the first. Semicolons may be repeated and may end the properties. -/
def furtherProperties (fuel : Nat) (subject : Subject) : Reader Unit :=
  match fuel with
  | 0 => failure
  | fuel + 1 => do
    if ← tryMark ';' then
      if ← atMark [';'] then furtherProperties fuel subject
      else if ← atMark ['.', ']'] then return ()
      else properties fuel subject

end

/-- The triples of a statement up to its final dot. -/
def triples (fuel : Nat) : Reader Unit := do
  match ← next with
  | .mark '[' =>
    let node ← freshBlank
    if ← tryMark ']' then properties fuel (.blank node)
    else
      properties fuel (.blank node)
      mark ']'
      if !(← atMark ['.']) then properties fuel (.blank node)
  | .mark '(' =>
    match (← list fuel).subject? with
    | some subject => properties fuel subject
    | none => failure
  | .label name => properties fuel (.blank (.named (String.ofList name)))
  | token => properties fuel (.iri (← iriOf token))
  mark '.'

/-! ## Documents -/

/-- The declaration of a prefix. -/
def prefixDeclaration : Reader Unit := do
  match ← next, ← next with
  | .prefixed space name, .reference text =>
    if !name.isEmpty then failure
    let iri ← resolved text
    modify fun r => { r with spaces := (space, iri.text.toList) :: r.spaces }
  | _, _ => failure

/-- The declaration of a base. -/
def baseDeclaration : Reader Unit := do
  match ← next with
  | .reference text =>
    let iri ← resolved text
    modify fun r => { r with base := some iri }
  | _ => failure

/-- A statement: a declaration, or triples. -/
def statement (fuel : Nat) : Reader Unit := do
  let r ← get
  match r.tokens with
  | .atWord word :: rest =>
    set { r with tokens := rest }
    if word == "prefix".toList then prefixDeclaration
    else if word == "base".toList then baseDeclaration
    else failure
    mark '.'
  | .word text :: rest =>
    set { r with tokens := rest }
    let word := text.map Char.toLower
    if word == "prefix".toList then prefixDeclaration
    else if word == "base".toList then baseDeclaration
    else failure
  | _ => triples fuel

/-- Statements up to the end. Every statement takes a token, so that `count`, the number of
tokens, is enough. -/
def statements (fuel count : Nat) : Reader Unit := do
  match count, (← get).tokens with
  | _, [] => return ()
  | 0, _ => failure
  | count + 1, _ =>
    statement fuel
    statements fuel count

end Reader

/-- The graph of a document, or why it has none. `base` is the IRI that references in it are
relative to. -/
def readGraph (text : String) (base : Option Iri) : Except Fault Graph := do
  if let some iri := base then
    if let .error fault := iri.check then throw (.invalidBase iri fault)
  match tokens? text.toList with
  | none => throw .malformed
  | some tokens =>
    let start : Reading := ⟨tokens, base, [], 0, []⟩
    match (Reader.statements (4 * tokens.length + 4) tokens.length).run start with
    | none => throw .malformed
    | some (_, reading) => return Graph.ofList reading.triples.reverse

end ShapeSchema.Turtle
