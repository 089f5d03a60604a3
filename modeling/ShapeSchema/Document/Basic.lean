import ShapeSchema.Schema.Basic

/-!
# Schema documents

The form in which a schema is stored: the kinds of nodes by their labels, and the relationships
between labels. A document may also have been written by hand, so that its datatypes and the bounds
of its relationships are any texts.

## Main definitions

* `ShapeSchema.Document` — the documents.
* `ShapeSchema.Document.ofSchema` — the document of a schema.
* `ShapeSchema.Document.sorted` — a document with its parts in order.
-/

namespace ShapeSchema

namespace Document

/-- What a document says about a property. -/
structure Property where
  /-- The name of the type of its values. -/
  datatype : String := "String"
  /-- The least number of values. -/
  min : Option Count := none
  /-- The greatest number of values. -/
  max : Option Count := none
  deriving DecidableEq, Inhabited

/-- What a document says about the nodes with a label. -/
structure Node where
  /-- The label. -/
  label : String
  /-- The properties by their names. -/
  properties : Dict Property := {}
  deriving DecidableEq, Inhabited

/-- What a document says about a relationship. -/
structure Relationship where
  /-- The type. -/
  type : String
  /-- The label that it starts from. -/
  source : String
  /-- The label that it leads to. -/
  target : String
  /-- The properties by their names. -/
  properties : Dict Property := {}
  /-- The least number of such relationships. -/
  min : Option String := none
  /-- The greatest number of such relationships. -/
  max : Option String := none
  deriving DecidableEq, Inhabited

end Document

/-- The stored form of a schema. -/
structure Document where
  /-- The nodes. -/
  nodes : List Document.Node := []
  /-- The relationships. -/
  relationships : List Document.Relationship := []
  deriving DecidableEq, Inhabited

namespace Document

/-! ## Documents of schemas -/

/-- What a document says about a constraint. A lower bound of zero is left out. -/
def Property.ofConstraint (c : Constraint) : Property where
  datatype := c.datatype.name
  min := if c.cardinality.min > 0 then some c.cardinality.min else none
  max := c.cardinality.max

/-- What a document says about constraints. -/
def propertiesOf (constraints : Dict Constraint) : Dict Property :=
  constraints.map Property.ofConstraint

/-- What a document says about a node. A node without a label is not in it. -/
def Node.ofNode? (n : Schema.Node) : Option Node :=
  n.firstLabel?.map fun label => ⟨label, propertiesOf n.constraints⟩

/-- The label by which a document refers to a node: its first one, or else its identifier. -/
def labelOf (s : Schema) (id : String) : String :=
  ((s.node? id).bind Schema.Node.firstLabel?).getD id

/-- What a document says about an edge. -/
def Relationship.ofEdge (s : Schema) (e : Schema.Edge) : Relationship where
  type := e.type
  source := labelOf s e.source
  target := labelOf s e.target
  properties := propertiesOf e.constraints
  min := e.properties.get? Schema.Edge.minKey
  max := e.properties.get? Schema.Edge.maxKey

/-- The document of a schema. -/
def ofSchema (s : Schema) : Document where
  nodes := s.nodes.entries.filterMap Node.ofNode?
  relationships := s.edges.entries.map (Relationship.ofEdge s)

/-! ## Looking up and sorting -/

/-- The first node with a label. -/
def node? (d : Document) (label : String) : Option Node :=
  d.nodes.find? (·.label = label)

/-- Relationships are sorted by source, then by type, then by target. -/
def Relationship.before (r s : Relationship) : Bool :=
  if r.source ≠ s.source then r.source < s.source
  else if r.type ≠ s.type then r.type < s.type
  else r.target ≤ s.target

/-- A document with its nodes in the order of their labels and its relationships in theirs. -/
def sorted (d : Document) : Document where
  nodes := d.nodes.mergeSort (·.label ≤ ·.label)
  relationships := d.relationships.mergeSort Relationship.before

end Document

end ShapeSchema
