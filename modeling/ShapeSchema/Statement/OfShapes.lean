import ShapeSchema.Statement.Basic
import ShapeSchema.Diagnostic
import ShapeSchema.Dict
import ShapeSchema.Rdf.Graph
import ShapeSchema.Rdf.Vocabulary
import ShapeSchema.Text.Blank

/-!
# Reading shapes

The facts that the node shapes of a graph state. A node shape stands for its target class; each of
its property shapes states a property or, if it has a class, a relationship. What cannot be read is
passed over and reported.

## Main definitions

* `ShapeSchema.NodeShape.ofGraph` — the node shapes of a graph with their target classes.
* `ShapeSchema.PropertyShape.ofTerm` — what the value of `sh:property` says, or why it says
  nothing.
* `ShapeSchema.Statements.ofShapes` — the statements of a graph.
* `ShapeSchema.Statements.notesOfShapes` — what is reported about it.
-/

namespace ShapeSchema

open Rdf (Graph Subject Term)

/-! ## Counts -/

/-- The count that a term states: that of its text without the blanks around it. -/
def countOf? : Term → Option Count
  | .literal l => Count.ofText? (Text.trim l.value.toList)
  | _ => none

/-- The cardinality that a shape states. A bound that is no count is left out. -/
def cardinalityAt (g : Graph) (shape : Subject) : Cardinality where
  min := ((g.object? shape Vocabulary.minCount).bind countOf?).getD 0
  max := (g.object? shape Vocabulary.maxCount).bind countOf?

/-- What is reported about the bounds that a shape states. -/
def countNotes (g : Graph) (shape : Subject) : List Diagnostic :=
  [Vocabulary.minCount, Vocabulary.maxCount].filterMap fun predicate =>
    match g.object? shape predicate with
    | none => none
    | some term => if (countOf? term).isSome then none else some .invalidCount

/-- The IRI that a shape gives for a predicate. -/
def iriAt? (g : Graph) (shape : Subject) (predicate : Iri) : Option Iri :=
  (g.object? shape predicate).bind Term.iri?

/-! ## Properties of relationships -/

/-- What a property shape inside the shape of a relationship says, or why it says nothing. -/
def nestedOf (g : Graph) (value : Term) : Except Diagnostic (Subject × Property) :=
  match value.subject? with
  | none => .error .nestedNotNode
  | some shape =>
    match iriAt? g shape Vocabulary.path with
    | none => .error .nestedWithoutPath
    | some path =>
      match iriAt? g shape Vocabulary.datatype with
      | none => .error .nestedWithoutDatatype
      | some datatype => .ok (shape, ⟨path, datatype, cardinalityAt g shape⟩)

/-- The properties that the shape of a relationship gives it. -/
def nestedAt (g : Graph) (shape : Subject) : List Property :=
  (g.objects shape Vocabulary.property).filterMap fun value =>
    (nestedOf g value).toOption.map (·.2)

/-- What is reported about the properties of a relationship. -/
def nestedNotes (g : Graph) (shape : Subject) : List Diagnostic :=
  (g.objects shape Vocabulary.property).flatMap fun value =>
    match nestedOf g value with
    | .error note => [note]
    | .ok (nested, _) => countNotes g nested

/-! ## Property shapes -/

/-- What a property shape says. -/
inductive PropertyShape where
  /-- It states a property. -/
  | property (property : Property)
  /-- It states a relationship, with its properties. -/
  | relation (predicate target : Iri) (cardinality : Cardinality) (properties : List Property)

namespace PropertyShape

/-- What a property shape with the given path says, or why it says nothing. -/
def ofPath (g : Graph) (shape : Subject) (path : Iri) : Except Diagnostic PropertyShape :=
  match g.object? shape Vocabulary.class with
  | some (.iri target) =>
    .ok (.relation path target (cardinalityAt g shape) (nestedAt g shape))
  | some _ => .error .classNotIri
  | none =>
    match iriAt? g shape Vocabulary.datatype with
    | some datatype => .ok (.property ⟨path, datatype, cardinalityAt g shape⟩)
    | none => .error .propertyWithoutType

/-- What a value of `sh:property` says, or why it says nothing. -/
def ofTerm (g : Graph) (value : Term) : Except Diagnostic PropertyShape :=
  match value.subject? with
  | none => .error .propertyNotNode
  | some shape =>
    match iriAt? g shape Vocabulary.path with
    | none => .error .propertyWithoutPath
    | some path => ofPath g shape path

/-- What is reported about a value of `sh:property`. The bounds are looked at as soon as there is a
path. -/
def notes (g : Graph) (value : Term) : List Diagnostic :=
  match value.subject? with
  | none => [.propertyNotNode]
  | some shape =>
    match iriAt? g shape Vocabulary.path with
    | none => [.propertyWithoutPath]
    | some path =>
      countNotes g shape ++
        match ofPath g shape path with
        | .error note => [note]
        | .ok (.relation ..) => nestedNotes g shape
        | .ok (.property _) => []

/-- The fact that a property shape states about a subject. -/
def fact (subject : String) : PropertyShape → Fact
  | property p => .ofProperty ⟨subject, p, none⟩
  | relation predicate target cardinality properties =>
    .ofRelation (.toClass subject predicate target cardinality properties)

end PropertyShape

/-! ## Node shapes -/

/-- A node shape with its target class. -/
structure NodeShape where
  /-- The shape. -/
  node : Subject
  /-- The class that it stands for. -/
  target : Iri

namespace NodeShape

/-- The nodes that a graph calls node shapes. -/
def nodesOf (g : Graph) : List Subject :=
  g.subjects Vocabulary.type (.iri Vocabulary.nodeShape)

/-- The target classes of a shape that are IRIs. -/
def targetsOf (g : Graph) (node : Subject) : List Iri :=
  (g.objects node Vocabulary.targetClass).filterMap Term.iri?

/-- The node shapes of a graph. Of several target classes the first one counts. -/
def ofGraph (g : Graph) : List NodeShape :=
  (nodesOf g).filterMap fun node => (targetsOf g node).head?.map (⟨node, ·⟩)

/-- The subject that the facts of a shape are about. -/
def subject (shape : NodeShape) : String := shape.target.localName

/-- The facts about the properties and relationships that a shape states. -/
def facts (g : Graph) (shape : NodeShape) : List Fact :=
  (g.objects shape.node Vocabulary.property).filterMap fun value =>
    (PropertyShape.ofTerm g value).toOption.map (·.fact shape.subject)

/-- What is reported about the target classes of a node. -/
def targetNotes (g : Graph) (node : Subject) : List Diagnostic :=
  match targetsOf g node with
  | [] => [.shapeWithoutClass]
  | _ :: further => further.map fun _ => .furtherClass

/-- What is reported about shapes whose classes have a local name that was there before; `known`
holds the latest class with each local name. -/
def sharedNotes (known : Dict Iri) : List NodeShape → List Diagnostic
  | [] => []
  | shape :: shapes =>
    let others := sharedNotes (known.insert shape.subject shape.target) shapes
    match known.get? shape.subject with
    | some earlier => if earlier = shape.target then others else .sharedLocalName :: others
    | none => others

end NodeShape

/-! ## Statements -/

/-- How shapes are read. -/
structure ReadingOptions where
  /-- The namespace of the statements, unless it is that of the first class. -/
  space : Option String := none
  /-- Whether the properties of relationships are copied. -/
  copies : Bool := true
  deriving DecidableEq

namespace Statements

/-- What the statements of a graph are called. -/
def shapesName : String := "statements"

/-- The namespace of the statements of some shapes. An empty one counts as none. -/
def spaceOf (options : ReadingOptions) (shapes : List NodeShape) : String :=
  let space := options.space.orElse fun _ => shapes.head?.map (·.target.namespaceOf)
  match space with
  | none | some "" => defaultNamespace
  | some space => space

/-- The statements of a graph without copied properties. Classes come first. -/
def ofNodeShapes (options : ReadingOptions) (g : Graph) (shapes : List NodeShape) : Statements :=
  ofList shapesName (spaceOf options shapes)
    (shapes.map (fun shape => .ofClass ⟨shape.subject, shape.target⟩) ++
      shapes.flatMap (·.facts g))

/-- The copied properties of the relationships among some facts. -/
def copiesOf (facts : List Fact) : List Fact :=
  (facts.filterMap Fact.relation?).flatMap fun f => f.copies.map .ofProperty

/-- The copied properties that the shapes of a graph ask for. -/
def copiesOfShapes (options : ReadingOptions) (g : Graph) (shapes : List NodeShape) : List Fact :=
  if options.copies then copiesOf (shapes.flatMap (·.facts g)) else []

/-- The statements with a fact in them, unless there is one with its identifier. -/
def insertNew (s : Statements) (f : Fact) : Statements :=
  if s.facts.contains f.id then s else s.insert f

/-- The statements that the shapes of a graph make. Copied properties come last and give way to
properties with the same name. -/
def ofShapes (options : ReadingOptions) (g : Graph) : Statements :=
  let shapes := NodeShape.ofGraph g
  (copiesOfShapes options g shapes).foldl insertNew (ofNodeShapes options g shapes)

/-- What is reported about copied properties that give way. -/
def copyNotes (s : Statements) : List Fact → List Diagnostic
  | [] => []
  | f :: facts =>
    if s.facts.contains f.id then .copyShadowed :: copyNotes s facts
    else copyNotes (s.insert f) facts

/-- What is reported when the shapes of a graph are read. -/
def notesOfShapes (options : ReadingOptions) (g : Graph) : List Diagnostic :=
  let shapes := NodeShape.ofGraph g
  (NodeShape.nodesOf g).flatMap (NodeShape.targetNotes g) ++
    NodeShape.sharedNotes {} shapes ++
    shapes.flatMap (fun shape =>
      (g.objects shape.node Vocabulary.property).flatMap (PropertyShape.notes g)) ++
    copyNotes (ofNodeShapes options g shapes) (copiesOfShapes options g shapes)

end Statements

end ShapeSchema
