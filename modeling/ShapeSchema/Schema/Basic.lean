import ShapeSchema.Registry
import ShapeSchema.Dict
import ShapeSchema.Cardinality
import ShapeSchema.Datatype
import ShapeSchema.Json.Basic

/-!
# Property graph schemas

A schema says which kinds of nodes a property graph has, which relationships may connect them, and
which properties both may carry. Both ends of a relationship are nodes of the schema.

## Main definitions

* `ShapeSchema.Constraint` — what is demanded of a property.
* `ShapeSchema.Schema.Node`, `ShapeSchema.Schema.Edge` — kinds of nodes and of relationships.
* `ShapeSchema.Schema.Edge.setCardinality`, `ShapeSchema.Schema.Edge.cardinality?` — the
  cardinality of a relationship is kept as text among its properties.
* `ShapeSchema.Schema` — nodes and edges in the order in which their identifiers arrived.
* `ShapeSchema.Schema.insertEdge` — an edge is taken in only if its ends are there.
-/

namespace ShapeSchema

/-- What is demanded of a property. -/
structure Constraint where
  /-- The type of its values. -/
  datatype : Datatype
  /-- How many values it has. -/
  cardinality : Cardinality := {}
  deriving DecidableEq, Inhabited

namespace Schema

/-- A kind of nodes. -/
structure Node where
  /-- The identifier in the schema. -/
  id : String
  /-- The labels of such nodes. -/
  labels : NameSet := {}
  /-- The constraints by the names of the properties. -/
  constraints : Dict Constraint := {}
  /-- Values of properties of the kind itself. -/
  properties : Dict Json := {}
  deriving Inhabited

instance : Keyed Node := ⟨Node.id⟩

namespace Node

/-- The first label in order. -/
def firstLabel? (n : Node) : Option String := n.labels.keys.head?

/-- The node with a further label. -/
def addLabel (n : Node) (label : String) : Node := { n with labels := n.labels.add label }

/-- The node with a constraint on a property, in the place of the one that was there. -/
def constrain (n : Node) (name : String) (c : Constraint) : Node :=
  { n with constraints := n.constraints.insert name c }

/-- The node with a value of a property. -/
def setProperty (n : Node) (name : String) (value : Json) : Node :=
  { n with properties := n.properties.insert name value }

end Node

/-- A kind of relationships. -/
structure Edge where
  /-- The identifier in the schema. -/
  id : String
  /-- The identifier of the node that such relationships start from. -/
  source : String
  /-- The identifier of the node that they lead to. -/
  target : String
  /-- The type of such relationships. -/
  type : String
  /-- The constraints by the names of the properties. -/
  constraints : Dict Constraint := {}
  /-- Properties of the kind itself, its cardinality among them. -/
  properties : Dict String := {}
  deriving DecidableEq, Inhabited

instance : Keyed Edge := ⟨Edge.id⟩

namespace Edge

/-- The property that holds the lower bound of a relationship. -/
def minKey : String := "minCount"

/-- The property that holds the upper bound of a relationship. -/
def maxKey : String := "maxCount"

/-- The edge with a constraint on a property, in the place of the one that was there. -/
def constrain (e : Edge) (name : String) (c : Constraint) : Edge :=
  { e with constraints := e.constraints.insert name c }

/-- The edge with the value of a property. -/
def setProperty (e : Edge) (name value : String) : Edge :=
  { e with properties := e.properties.insert name value }

/-- The edge with a cardinality. Without an upper bound, an earlier one goes. -/
def setCardinality (e : Edge) (c : Cardinality) : Edge :=
  let bounded := e.setProperty minKey (Count.text c.min)
  match c.max with
  | some max => bounded.setProperty maxKey (Count.text max)
  | none => { bounded with properties := bounded.properties.erase maxKey }

/-- The count that a property of the kind states. -/
def count? (e : Edge) (name : String) : Option Count :=
  (e.properties.get? name).bind fun text => Count.ofText? text.toList

/-- The cardinality, if a bound is stated. -/
def cardinality? (e : Edge) : Option Cardinality :=
  match e.count? minKey, e.count? maxKey with
  | none, none => none
  | min, max => some ⟨min.getD 0, max⟩

end Edge

end Schema

/-- Kinds of nodes and of relationships, in the order in which their identifiers arrived. -/
structure Schema where
  /-- What the schema is called. -/
  name : String
  /-- The namespace that names become IRIs in. -/
  space : String
  /-- The kinds of nodes. -/
  nodes : Registry Schema.Node := {}
  /-- The kinds of relationships. -/
  edges : Registry Schema.Edge := {}
  deriving Inhabited

namespace Schema

/-- An edge leads from or to a node that is not there. -/
structure DanglingEdge where
  /-- The identifier of the edge. -/
  edge : String
  /-- The identifier of the missing node. -/
  endpoint : String
  deriving DecidableEq

/-- What is said about a dangling edge. -/
def DanglingEdge.message (e : DanglingEdge) : String :=
  "Edge " ++ e.edge ++ " refers to the unknown node " ++ e.endpoint

/-- The node with the identifier. -/
def node? (s : Schema) (id : String) : Option Node := s.nodes.find? id

/-- The edge with the identifier. -/
def edge? (s : Schema) (id : String) : Option Edge := s.edges.find? id

/-- Whether there is a node with the identifier. -/
def hasNode (s : Schema) (id : String) : Bool := s.nodes.contains id

/-- The schema with a node, in the place of the one with its identifier if there is one. -/
def insertNode (s : Schema) (n : Node) : Schema := { s with nodes := s.nodes.insert n }

/-- The node with the identifier, or a bare one. -/
def nodeOrBare (s : Schema) (id : String) : Node := (s.node? id).getD { id := id }

/-- The schema with the node of the identifier changed, or with a changed bare one. -/
def updateNode (s : Schema) (id : String) (f : Node → Node) : Schema :=
  s.insertNode (f (s.nodeOrBare id))

/-- The schema with an edge, in the place of the one with its identifier if there is one. Its
source is looked for first. -/
def insertEdge (s : Schema) (e : Edge) : Except DanglingEdge Schema :=
  if !s.hasNode e.source then .error ⟨e.id, e.source⟩
  else if !s.hasNode e.target then .error ⟨e.id, e.target⟩
  else .ok { s with edges := s.edges.insert e }

/-- The first node with a label. -/
def nodeWithLabel? (s : Schema) (label : String) : Option Node :=
  s.nodes.entries.find? (·.labels.contains label)

/-- The edges of a type, in order. -/
def edgesOfType (s : Schema) (type : String) : List Edge :=
  s.edges.entries.filter (·.type = type)

/-- The labels of the nodes. -/
def labels (s : Schema) : NameSet := NameSet.ofNames (s.nodes.entries.flatMap (·.labels.keys))

/-- The types of the edges. -/
def edgeTypes (s : Schema) : NameSet := NameSet.ofNames (s.edges.entries.map (·.type))

/-- Whether there are neither nodes nor edges. -/
def isEmpty (s : Schema) : Bool := s.nodes.entries.isEmpty && s.edges.entries.isEmpty

end Schema

end ShapeSchema
