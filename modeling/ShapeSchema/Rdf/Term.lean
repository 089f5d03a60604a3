import ShapeSchema.Iri.Basic

/-!
# RDF terms

Identifiers, blank nodes and literals, and the triples that they form.

## Main definitions

* `ShapeSchema.Rdf.BlankNode`, `ShapeSchema.Rdf.Literal`, `ShapeSchema.Rdf.Subject`,
  `ShapeSchema.Rdf.Term`, `ShapeSchema.Rdf.Triple` — the terms and triples.
* `ShapeSchema.Rdf.Literal.typed` — a literal with a datatype; `xsd:string` is the datatype of
  plain text.
-/

namespace ShapeSchema.Rdf

/-- A node without an identifier. Its name means nothing outside of its graph. -/
inductive BlankNode where
  /-- A node that was given a label. -/
  | named (label : String)
  /-- A node that was made up, told apart from others by a number. -/
  | fresh (number : Nat)
  deriving DecidableEq, Inhabited

/-- `xsd:string`, the datatype of plain text. -/
def xsdString : Iri := ⟨"http://www.w3.org/2001/XMLSchema#string"⟩

/-- A text, with a language or a datatype or neither of them. -/
inductive Literal where
  /-- Plain text. -/
  | plain (value : String)
  /-- Text in a language. -/
  | tagged (value language : String)
  /-- The lexical form of a value of a datatype other than `xsd:string`. -/
  | other (value : String) (datatype : Iri)
  deriving DecidableEq

namespace Literal

/-- The literal with the given datatype. -/
def typed (value : String) (datatype : Iri) : Literal :=
  if datatype = xsdString then plain value else other value datatype

/-- The text of a literal, whatever its datatype. -/
def value : Literal → String
  | plain value => value
  | tagged value _ => value
  | other value _ => value

end Literal

/-- What a triple speaks of. -/
inductive Subject where
  | iri (iri : Iri)
  | blank (node : BlankNode)
  deriving DecidableEq

/-- What stands at the end of a triple. -/
inductive Term where
  | iri (iri : Iri)
  | blank (node : BlankNode)
  | literal (literal : Literal)
  deriving DecidableEq

/-- A subject as a term. -/
def Subject.toTerm : Subject → Term
  | iri i => .iri i
  | blank b => .blank b

/-- The IRI that a term is. -/
def Term.iri? : Term → Option Iri
  | iri i => some i
  | _ => none

/-- The subject that a term can be; a literal can be none. -/
def Term.subject? : Term → Option Subject
  | iri i => some (.iri i)
  | blank b => some (.blank b)
  | literal _ => none

/-- A statement of RDF. -/
structure Triple where
  /-- What it speaks of. -/
  subject : Subject
  /-- The property. -/
  predicate : Iri
  /-- The value of the property. -/
  object : Term
  deriving DecidableEq

/-! ## Literals as text -/

/-- A hexadecimal digit in upper case. -/
def hexDigit (n : Nat) : Char := n.digitChar.toUpper

/-- Four hexadecimal digits. -/
def hexCode (n : Nat) : List Char :=
  [hexDigit (n / 4096 % 16), hexDigit (n / 256 % 16), hexDigit (n / 16 % 16), hexDigit (n % 16)]

/-- A character inside a quoted literal. -/
def quotedChar (c : Char) : List Char :=
  if c = '\x08' then ['\\', 'b']
  else if c = '\t' then ['\\', 't']
  else if c = '\n' then ['\\', 'n']
  else if c = '\x0c' then ['\\', 'f']
  else if c = '\r' then ['\\', 'r']
  else if c = '"' then ['\\', '"']
  else if c = '\\' then ['\\', '\\']
  else if c.toNat ≤ 0x1F || c.toNat == 0x7F || c.toNat == 0xFFFE || c.toNat == 0xFFFF then
    '\\' :: 'u' :: hexCode c.toNat
  else [c]

/-- A text between quotation marks. -/
def quoted (text : String) : String :=
  String.ofList ('"' :: text.toList.flatMap quotedChar ++ ['"'])

/-- An IRI between angle brackets. -/
def bracketed (iri : Iri) : String := "<" ++ iri.text ++ ">"

/-- A literal in full. -/
def Literal.text : Literal → String
  | plain value => quoted value
  | tagged value language => quoted value ++ "@" ++ language
  | other value datatype => quoted value ++ "^^" ++ bracketed datatype

end ShapeSchema.Rdf
