import ShapeSchema.Schema.Basic
import ShapeSchema.Table

/-!
# Schemas as they are stored

A schema is stored as a table of nodes and a table of edges. An operation has no result if an index
leads behind the rows of its table. A constraint is stored with its name, besides being kept under
it.

Nodes and edges are made bare and then changed. A node that is in the table already is changed where
it stands.

## Main definitions

* `ShapeSchema.Store` — a schema with its tables.
* `ShapeSchema.Store.Op` — what can be done to it.
* `ShapeSchema.Store.step`, `ShapeSchema.Store.run` — one operation, and several in turn.
* `ShapeSchema.Store.plain`, `ShapeSchema.Store.Op.plain` — the schema that is stored, and what is
  done to it.
-/

namespace ShapeSchema

namespace Store

/-! ## Nodes and edges -/

/-- A constraint with the name of its property. -/
structure NamedConstraint extends Constraint where
  /-- The name of the property. -/
  name : String

/-- A kind of nodes, as it is stored. -/
structure Node where
  /-- The identifier in the schema. -/
  id : String
  /-- The labels of such nodes. -/
  labels : NameSet := {}
  /-- The constraints. -/
  constraints : Dict NamedConstraint := {}
  /-- Values of properties of the kind itself. -/
  properties : Dict Json := {}

instance : Keyed Node := ⟨Node.id⟩

/-- What can be done to a node. -/
inductive NodeChange where
  | addLabel (label : String)
  | constrain (c : NamedConstraint)
  | setProperty (name : String) (value : Json)

namespace Node

/-- The node after a change. A constraint takes the place of the one with its name. -/
def apply (n : Node) : NodeChange → Node
  | .addLabel label => { n with labels := n.labels.add label }
  | .constrain c => { n with constraints := n.constraints.insert c.name c }
  | .setProperty name value => { n with properties := n.properties.insert name value }

/-- The node after some changes. -/
def change (n : Node) (changes : List NodeChange) : Node := changes.foldl apply n

/-- A node that is made bare and then changed. -/
def make (id : String) (changes : List NodeChange) : Node := change ⟨id, {}, {}, {}⟩ changes

end Node

/-- A kind of relationships, as it is stored. -/
structure Edge where
  /-- The identifier in the schema. -/
  id : String
  /-- The identifier of the node that such relationships start from. -/
  source : String
  /-- The identifier of the node that they lead to. -/
  target : String
  /-- The type of such relationships. -/
  type : String
  /-- The constraints. -/
  constraints : Dict NamedConstraint := {}
  /-- Properties of the kind itself, its cardinality among them. -/
  properties : Dict String := {}

instance : Keyed Edge := ⟨Edge.id⟩

/-- What can be done to an edge. -/
inductive EdgeChange where
  | constrain (c : NamedConstraint)
  | setProperty (name value : String)
  | setCardinality (c : Cardinality)

namespace Edge

/-- The edge with the value of a property. -/
def setProperty (e : Edge) (name value : String) : Edge :=
  { e with properties := e.properties.insert name value }

/-- The edge after a change. Without an upper bound, an earlier one goes. -/
def apply (e : Edge) : EdgeChange → Edge
  | .constrain c => { e with constraints := e.constraints.insert c.name c }
  | .setProperty name value => e.setProperty name value
  | .setCardinality c =>
    let bounded := e.setProperty Schema.Edge.minKey (Count.text c.min)
    match c.max with
    | some max => bounded.setProperty Schema.Edge.maxKey (Count.text max)
    | none => { bounded with properties := bounded.properties.erase Schema.Edge.maxKey }

/-- The edge after some changes. -/
def change (e : Edge) (changes : List EdgeChange) : Edge := changes.foldl apply e

/-- An edge that is made without constraints and properties and then changed. -/
def make (id source target type : String) (changes : List EdgeChange) : Edge :=
  change ⟨id, source, target, type, {}, {}⟩ changes

end Edge

end Store

/-! ## Stored schemas -/

/-- A schema as it is stored. -/
structure Store where
  /-- What the schema is called. -/
  name : String
  /-- The namespace that names become IRIs in. -/
  space : String
  /-- The kinds of nodes. -/
  nodes : Table Store.Node := {}
  /-- The kinds of relationships. -/
  edges : Table Store.Edge := {}

namespace Store

/-- The store with a node, and the node that had its identifier before. -/
def addNode (S : Store) (n : Node) : Option (Option Node × Store) :=
  (S.nodes.put n).map fun (old, nodes) => (old, { S with nodes := nodes })

/-- The store with the node of the identifier changed, or with a changed bare one. -/
def changeOrAddNode (S : Store) (id : String) (changes : List NodeChange) :
    Option (Node × Store) :=
  (S.nodes.changeOrPush ⟨id, {}, {}, {}⟩ (·.change changes)).map fun (n, nodes) =>
    (n, { S with nodes := nodes })

/-- The store with the node of the identifier changed, if there is one. -/
def changeNode (S : Store) (id : String) (changes : List NodeChange) :
    Option (Option Node × Store) :=
  (S.nodes.change id (·.change changes)).map fun (n, nodes) => (n, { S with nodes := nodes })

/-- Whether the index of the nodes leads somewhere for an identifier. -/
def hasNode (S : Store) (id : String) : Bool := S.nodes.index.contains id

/-- The store with an edge, in the place of the one with its identifier if there is one. An edge
whose source or target is missing is refused; the source is looked for first. -/
def addEdge (S : Store) (e : Edge) : Option (Except Schema.DanglingEdge Unit × Store) :=
  match [e.source, e.target].find? fun id => !S.hasNode id with
  | some endpoint => some (.error ⟨e.id, endpoint⟩, S)
  | none => (S.edges.put e).map fun (_, edges) => (.ok (), { S with edges := edges })

/-- What can be done to a store. A handle on a node is there for changes to this node. -/
inductive Op where
  /-- A node is made and added. -/
  | addNode (id : String) (changes : List NodeChange)
  /-- A handle on the node with the identifier, which is added if it is missing. -/
  | handleOrNew (id : String) (changes : List NodeChange)
  /-- A handle on the node with the identifier, if there is one. -/
  | handle (id : String) (changes : List NodeChange)
  /-- An edge is made and added. -/
  | addEdge (id source target type : String) (changes : List EdgeChange)

/-- What an operation answers. -/
inductive Answer where
  /-- A node was added, in the place of an earlier one perhaps. -/
  | added (old : Option Node)
  /-- The node that a handle leads to, as it was before its changes. -/
  | found (n : Option Node)
  /-- An edge was added or refused. -/
  | edge (result : Except Schema.DanglingEdge Unit)

/-- One operation. There is no result if an index leads behind the rows of its table. -/
def step (S : Store) : Op → Option (Answer × Store)
  | .addNode id changes => (S.addNode (.make id changes)).map fun (old, S') => (.added old, S')
  | .handleOrNew id changes =>
    (S.changeOrAddNode id changes).map fun (n, S') => (.found (some n), S')
  | .handle id changes => (S.changeNode id changes).map fun (n, S') => (.found n, S')
  | .addEdge id source target type changes =>
    (S.addEdge (.make id source target type changes)).map fun (result, S') => (.edge result, S')

/-- Several operations in turn. -/
def run (S : Store) : List Op → Option Store
  | [] => some S
  | op :: ops => (S.step op).bind fun (_, S') => S'.run ops

/-! ## The schema that is stored -/

/-- A node without the names of its constraints. -/
def Node.plain (n : Node) : Schema.Node :=
  ⟨n.id, n.labels, n.constraints.map (·.toConstraint), n.properties⟩

/-- An edge without the names of its constraints. -/
def Edge.plain (e : Edge) : Schema.Edge :=
  ⟨e.id, e.source, e.target, e.type, e.constraints.map (·.toConstraint), e.properties⟩

/-- The names of constraints are no part of the identifier of a node. -/
theorem Node.key_plain (n : Node) : Keyed.key n.plain = Keyed.key n := rfl

/-- Nor are they a part of the identifier of an edge. -/
theorem Edge.key_plain (e : Edge) : Keyed.key e.plain = Keyed.key e := rfl

/-- The schema without its indexes and the names of constraints. -/
def plain (S : Store) : Schema :=
  ⟨S.name, S.space, S.nodes.registry.map Node.plain Node.key_plain,
    S.edges.registry.map Edge.plain Edge.key_plain⟩

/-- What a change does to the node of a schema. -/
def NodeChange.plain (n : Schema.Node) : NodeChange → Schema.Node
  | addLabel label => n.addLabel label
  | constrain c => n.constrain c.name c.toConstraint
  | setProperty name value => n.setProperty name value

/-- What a change does to the edge of a schema. -/
def EdgeChange.plain (e : Schema.Edge) : EdgeChange → Schema.Edge
  | constrain c => e.constrain c.name c.toConstraint
  | setProperty name value => e.setProperty name value
  | setCardinality c => e.setCardinality c

/-- What an operation does to a schema. -/
def Op.plain (S : Schema) : Op → Schema
  | addNode id changes => S.insertNode (changes.foldl NodeChange.plain ⟨id, {}, {}, {}⟩)
  | handleOrNew id changes => S.updateNode id fun n => changes.foldl NodeChange.plain n
  | handle id changes =>
    match S.node? id with
    | some n => S.insertNode (changes.foldl NodeChange.plain n)
    | none => S
  | addEdge id source target type changes =>
    match S.insertEdge (changes.foldl EdgeChange.plain ⟨id, source, target, type, {}, {}⟩) with
    | .ok S' => S'
    | .error _ => S

end Store

end ShapeSchema
