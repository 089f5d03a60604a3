import ShapeSchema.Statement.Basic
import ShapeSchema.Diagnostic
import ShapeSchema.Iri.Check
import ShapeSchema.Rdf.Graph
import ShapeSchema.Rdf.Vocabulary

/-!
# The shapes of some statements

Every subject becomes a node shape, whose IRI is that of its class with `Shape` behind it. Every
property and every relationship becomes a property shape, a blank node of its own. Copied
properties are passed over, because their relationships hold them already.

## Main definitions

* `ShapeSchema.Statements.shapeIri?` — the IRI of the shape of a subject.
* `ShapeSchema.Statements.toShapes` — the graph of the shapes.
* `ShapeSchema.Statements.notesOfToShapes` — what is reported about it.
-/

namespace ShapeSchema

open Rdf (BlankNode Graph Literal Subject Term Triple)

/-! ## Names of shapes -/

/-- The IRI of the shape of a class, if it is a valid one. -/
def ClassFact.shapeIri? (f : ClassFact) : Option Iri := Iri.ofText? (f.object.text ++ "Shape")

/-- The IRI of the shape of a subject: that of its class or, if there is none, one in the
namespace. -/
def Statements.shapeIri? (s : Statements) (subject : String) : Option Iri :=
  let ofClass := (s.classFacts.filter (·.subject = subject)).filterMap ClassFact.shapeIri?
  ofClass.getLast?.orElse fun _ => Iri.ofText? (s.space ++ subject ++ "Shape")

/-! ## Property shapes -/

/-- The literal of a count. -/
def countLiteral (n : Count) : Term := .literal (.typed (Count.text n) (xsd "integer"))

/-- The triples that state the bounds of a shape. A lower bound of zero is left out. -/
def Cardinality.triples (shape : Subject) (c : Cardinality) : List Triple :=
  (if c.min > 0 then [⟨shape, Vocabulary.minCount, countLiteral c.min⟩] else []) ++
    c.max.toList.map fun max => ⟨shape, Vocabulary.maxCount, countLiteral max⟩

/-- The triples that make a blank node a property shape of its owner. -/
def shapeTriples (owner : Subject) (shape : BlankNode) (path : Iri) : List Triple :=
  [⟨owner, Vocabulary.property, .blank shape⟩,
    ⟨.blank shape, Vocabulary.type, .iri Vocabulary.propertyShape⟩,
    ⟨.blank shape, Vocabulary.path, .iri path⟩]

/-- The triples of a property, whose shape is the given blank node. -/
def Property.triples (owner : Subject) (shape : BlankNode) (p : Property) : List Triple :=
  shapeTriples owner shape p.predicate ++
    ⟨.blank shape, Vocabulary.datatype, .iri p.datatype⟩ :: p.cardinality.triples (.blank shape)

/-- The triples of the properties of a relationship; their shapes are fresh blank nodes from the
given number on. -/
def nestedTriples (owner : Subject) (number : Nat) : List Property → List Triple
  | [] => []
  | p :: ps => p.triples owner (.fresh number) ++ nestedTriples owner (number + 1) ps

/-- The triples of a relationship; its shapes are fresh blank nodes from the given number on. -/
def RelationFact.triples (owner : Subject) (number : Nat) (f : RelationFact) : List Triple :=
  let shape := BlankNode.fresh number
  shapeTriples owner shape f.predicate ++
    ⟨.blank shape, Vocabulary.class, .iri f.target⟩ :: f.cardinality.triples (.blank shape) ++
    nestedTriples (.blank shape) (number + 1) f.properties

/-! ## Graphs -/

namespace Fact

/-- Whether a fact is one about a copied property. -/
def isCopy : Fact → Bool
  | ofProperty f => f.isCopy
  | _ => false

/-- The number of property shapes of a fact. -/
def shapeCount : Fact → Nat
  | ofClass _ => 0
  | ofProperty _ => 1
  | ofRelation f => 1 + f.properties.length

/-- The triples of a fact about the subject with the given shape; its property shapes are fresh
blank nodes from the given number on. -/
def triples (shape : Iri) (number : Nat) (f : Fact) : List Triple :=
  ⟨.iri shape, Vocabulary.type, .iri Vocabulary.nodeShape⟩ ::
    match f with
    | ofClass f => [⟨.iri shape, Vocabulary.targetClass, .iri f.object⟩]
    | ofProperty f => f.property.triples (.iri shape) (.fresh number)
    | ofRelation f => f.triples (.iri shape) number

end Fact

namespace Statements

/-- The facts that shapes are made of. -/
def shapeFacts (s : Statements) : List Fact := s.toList.filter (!·.isCopy)

/-- The triples of some facts; their property shapes are fresh blank nodes from the given number
on. A fact whose subject has no shape is passed over. -/
def triplesOf (s : Statements) (number : Nat) : List Fact → List Triple
  | [] => []
  | f :: fs =>
    match s.shapeIri? f.subject with
    | some shape => f.triples shape number ++ s.triplesOf (number + f.shapeCount) fs
    | none => s.triplesOf number fs

/-- The graph of the shapes of some statements. -/
def toShapes (s : Statements) : Graph := Graph.ofList (s.triplesOf 0 s.shapeFacts)

/-- What is reported about the shapes of some statements. -/
def notesOfToShapes (s : Statements) : List Diagnostic :=
  ((s.classFacts.filter (·.shapeIri?.isNone)).map fun _ => .classShapeIri) ++
    ((s.shapeFacts.filter fun f => (s.shapeIri? f.subject).isNone).map fun _ => .subjectShapeIri)

end Statements

end ShapeSchema
