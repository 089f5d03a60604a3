import ShapeSchema.Schema.Basic
import ShapeSchema.Statement.ToShapes

/-!
# The statements of a schema

The way back from a schema: nodes become classes with properties, edges become relationships. Names
become IRIs in the namespace of the schema, and what has no valid IRI there is passed over.

## Main definitions

* `ShapeSchema.Schema.iriOf?` — the IRI of a name.
* `ShapeSchema.Schema.toStatements` — the statements.
* `ShapeSchema.Schema.notesOfToStatements` — what is reported about them.
* `ShapeSchema.Schema.toShapes` — the shapes of a schema, by way of its statements.
-/

namespace ShapeSchema.Schema

/-- The IRI of a name in the namespace of a schema, if it is a valid one. -/
def iriOf? (s : Schema) (name : String) : Option Iri := Iri.ofText? (s.space ++ name)

/-- The properties that constraints state, in the order of their names. -/
def propertiesOf (s : Schema) (constraints : Dict Constraint) : List Property :=
  constraints.entries.filterMap fun (name, c) =>
    (s.iriOf? name).map fun predicate => ⟨predicate, c.datatype.iri, c.cardinality⟩

/-- The facts that a node states. The class is named by its first label. -/
def nodeFacts (s : Schema) (n : Node) : List Fact :=
  ((n.firstLabel?.bind s.iriOf?).toList.map fun target => .ofClass ⟨n.id, target⟩) ++
    (s.propertiesOf n.constraints).map fun p => .ofProperty ⟨n.id, p, none⟩

/-- The name of the class of the node with an identifier: its first label, or else the
identifier. -/
def className (s : Schema) (id : String) : String :=
  ((s.node? id).bind Node.firstLabel?).getD id

/-- The name of the relationship that an edge states. -/
def relationName (e : Edge) : String := Naming.lowerCamelCase e.type

/-- The fact that an edge states, if the relationship and its class have IRIs. -/
def edgeFact? (s : Schema) (e : Edge) : Option Fact :=
  match s.iriOf? (relationName e), s.iriOf? (s.className e.target) with
  | some predicate, some target =>
    some (.ofRelation
      { subject := e.source
        predicate := predicate
        object := e.target
        target := target
        cardinality := e.cardinality?.getD .any
        properties := s.propertiesOf e.constraints })
  | _, _ => none

/-- The statements of a schema. -/
def toStatements (s : Schema) : Statements :=
  .ofList s.name s.space
    (s.nodes.entries.flatMap s.nodeFacts ++ s.edges.entries.filterMap s.edgeFact?)

/-- What is reported about names that have no valid IRI. -/
def nameNotes (s : Schema) (names : List String) : List Diagnostic :=
  (names.filter fun name => (s.iriOf? name).isNone).map fun _ => .nameIri

/-- What is reported about the fact of an edge. Its properties are only looked at if there is
one. -/
def edgeNotes (s : Schema) (e : Edge) : List Diagnostic :=
  s.nameNotes [relationName e, s.className e.target] ++
    if (s.edgeFact? e).isSome then s.nameNotes e.constraints.keys else []

/-- What is reported about the statements of a schema. -/
def notesOfToStatements (s : Schema) : List Diagnostic :=
  s.nodes.entries.flatMap (fun n => s.nameNotes (n.firstLabel?.toList ++ n.constraints.keys)) ++
    s.edges.entries.flatMap s.edgeNotes

/-- The shapes of a schema. -/
def toShapes (s : Schema) : Rdf.Graph := s.toStatements.toShapes

/-- What is reported about the shapes of a schema. -/
def notesOfToShapes (s : Schema) : List Diagnostic :=
  s.notesOfToStatements ++ s.toStatements.notesOfToShapes

end ShapeSchema.Schema
