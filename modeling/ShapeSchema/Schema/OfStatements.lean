import ShapeSchema.Schema.Basic
import ShapeSchema.Statement.Basic
import ShapeSchema.Diagnostic
import ShapeSchema.Text.Split

/-!
# The schema of some statements

Every class becomes a node, every property a constraint of the node of its subject, and every
relationship an edge between the nodes of its two subjects. Copied properties say nothing new and
are passed over.

Flat data models have no properties of relationships. So a relationship may also take up properties
of a subject with its own name, and properties of its subject whose names begin with its own.

## Main definitions

* `ShapeSchema.TypeStyle`, `ShapeSchema.Precedence`, `ShapeSchema.SchemaOptions` — the choices.
* `ShapeSchema.RelationFact.constraints` — the constraints of the edge of a relationship.
* `ShapeSchema.Schema.freeId` — an identifier that no edge has.
* `ShapeSchema.Schema.ofStatements` — the schema.
* `ShapeSchema.Schema.notesOfStatements` — what is reported about it.
-/

namespace ShapeSchema

/-- How the type of a relationship is made from its name. -/
inductive TypeStyle where
  /-- Words in upper case, with underscores between them. -/
  | upperSnake
  /-- Upper case. -/
  | flat
  deriving DecidableEq, Inhabited

/-- The type for a name. -/
def TypeStyle.apply : TypeStyle → String → String
  | upperSnake => Naming.upperSnakeCase
  | flat => Naming.flatUpperCase

/-- Which property counts if a relationship has a name twice. -/
inductive Precedence where
  /-- The property that the relationship states itself. -/
  | nested
  /-- The property that the relationship takes up from a subject. -/
  | flattened
  deriving DecidableEq, Inhabited

/-- How statements become a schema. -/
structure SchemaOptions where
  /-- How types are made. -/
  style : TypeStyle := .upperSnake
  /-- Which property counts. -/
  precedence : Precedence := .nested
  /-- Whether a relationship takes up the properties of a subject with its name. -/
  sameSubject : Bool := true
  /-- Whether a relationship takes up properties of its subject that begin with its name. -/
  compoundName : Bool := true
  deriving DecidableEq, Inhabited

/-- The constraint that a property becomes. -/
def Property.constraint (p : Property) : Constraint := ⟨.ofIri p.datatype, p.cardinality⟩

namespace RelationFact

/-! ## Constraints of relationships -/

/-- The constraints by the names of the properties that a relationship states. -/
def nestedEntries (f : RelationFact) : List (String × Constraint) :=
  f.properties.map fun p => (p.name, p.constraint)

/-- The constraints of the properties of a subject with the name of a relationship. -/
def sameSubjectEntries (s : Statements) (f : RelationFact) : List (String × Constraint) :=
  (s.ownPropertyFacts.filter (·.subject = f.name)).map fun p =>
    (p.property.name, p.property.constraint)

/-- What remains of a property's name behind that of a relationship and an underscore. -/
def behindName? (relationship name : String) : Option String :=
  match List.isPrefixOf? (relationship ++ "_").toList name.toList with
  | none | some [] => none
  | some rest => some (String.ofList rest)

/-- The constraints of the properties of a relationship's subject that begin with its name. -/
def compoundEntries (s : Statements) (f : RelationFact) : List (String × Constraint) :=
  (s.ownPropertyFacts.filter (·.subject = f.subject)).filterMap fun p =>
    (behindName? f.name p.property.name).map (·, p.property.constraint)

/-- The constraints that a relationship takes up from subjects. -/
def takenEntries (options : SchemaOptions) (s : Statements) (f : RelationFact) :
    List (String × Constraint) :=
  (if options.sameSubject then f.sameSubjectEntries s else []) ++
    (if options.compoundName then f.compoundEntries s else [])

/-- The constraints with a further one, unless there is one of its name that counts more. -/
def attach (precedence : Precedence) (constraints : Dict Constraint)
    (entry : String × Constraint) : Dict Constraint :=
  match precedence with
  | .nested =>
    if constraints.contains entry.1 then constraints else constraints.insert entry.1 entry.2
  | .flattened => constraints.insert entry.1 entry.2

/-- The constraints of the edge of a relationship. -/
def constraints (options : SchemaOptions) (s : Statements) (f : RelationFact) :
    Dict Constraint :=
  (f.takenEntries options s).foldl (attach options.precedence) (Dict.ofList f.nestedEntries)

/-- The edge of a relationship, with the given identifier. -/
def edge (options : SchemaOptions) (s : Statements) (f : RelationFact) (id : String) :
    Schema.Edge :=
  Schema.Edge.setCardinality
    { id := id
      source := f.subject
      target := f.object
      type := options.style.apply f.name
      constraints := f.constraints options s }
    f.cardinality

/-- The identifiers for the edge of a relationship, from the preferred one on. -/
def edgeId (f : RelationFact) (n : Nat) : String :=
  let plain := f.subject ++ "_" ++ f.name ++ "_" ++ f.object
  if n = 0 then plain else plain ++ "_" ++ (n + 1).repr

end RelationFact

namespace Schema

/-! ## Building a schema -/

/-- The number of the first identifier for a relationship that no edge has. One of as many
identifiers as there are edges and one more is free. -/
def freeNumber (s : Schema) (f : RelationFact) : Nat :=
  ((List.range (s.edges.size + 1)).find? fun n => (s.edge? (f.edgeId n)).isNone).getD 0

/-- The first identifier for a relationship that no edge has. -/
def freeId (s : Schema) (f : RelationFact) : String := f.edgeId (s.freeNumber f)

/-- The schema with the label of a class on the node of its subject. -/
def addClass (s : Schema) (f : ClassFact) : Schema :=
  s.updateNode f.subject (·.addLabel f.object.localName)

/-- The schema with the constraint of a property on the node of its subject, if there is one. -/
def addProperty (s : Schema) (f : PropertyFact) : Schema :=
  match s.node? f.subject with
  | some n => s.insertNode (n.constrain f.property.name f.property.constraint)
  | none => s

/-- The schema with the edge of a relationship, if both its ends are there. -/
def addRelation (options : SchemaOptions) (statements : Statements) (s : Schema)
    (f : RelationFact) : Schema :=
  match s.insertEdge (f.edge options statements (s.freeId f)) with
  | .ok s => s
  | .error _ => s

/-- What the schemas of statements are called. -/
def statementsName : String := "pgschema"

/-- The nodes of some statements, as a schema without edges. -/
def nodesOfStatements (statements : Statements) : Schema :=
  statements.ownPropertyFacts.foldl addProperty
    (statements.classFacts.foldl addClass ⟨statementsName, statements.space, {}, {}⟩)

/-- The schema of some statements. -/
def ofStatements (options : SchemaOptions) (statements : Statements) : Schema :=
  statements.relationFacts.foldl (addRelation options statements) (nodesOfStatements statements)

/-! ## Reports -/

/-- What is reported about a relationship that a schema is to take in. -/
def relationNotes (s : Schema) (f : RelationFact) : List Diagnostic :=
  (if s.freeNumber f = 0 then [] else [.relationshipRenamed]) ++
    (if s.hasNode f.subject && s.hasNode f.object then [] else [.relationshipDangling])

/-- What is reported about relationships that a schema takes in one after the other. -/
def relationsNotes (options : SchemaOptions) (statements : Statements) (s : Schema) :
    List RelationFact → List Diagnostic
  | [] => []
  | f :: fs =>
    s.relationNotes f ++ relationsNotes options statements (s.addRelation options statements f) fs

/-- What is reported about the schema of some statements. -/
def notesOfStatements (options : SchemaOptions) (statements : Statements) : List Diagnostic :=
  let nodes := nodesOfStatements statements
  ((statements.ownPropertyFacts.filter fun f => !nodes.hasNode f.subject).map fun _ =>
      .propertyOfUnknownSubject) ++
    relationsNotes options statements nodes statements.relationFacts

end Schema

end ShapeSchema
