import ShapeSchema.Document.Basic
import ShapeSchema.Proofs.Closure
import ShapeSchema.Proofs.Count

/-!
# Schemas are recovered from their documents

A document refers to nodes by labels, leaves out nodes without a label, lower bounds of zero and
missing upper bounds, and writes datatypes as texts. None of this loses anything when every node has
its identifier for its only label and no values of its own, when edges lead from node to node, and
when edges have no properties but their bounds. Schemas of statements that were read from shapes are
like this, so they are the same if their documents are. Only the identifiers of edges are not in a
document.

## Main definitions

* `ShapeSchema.Document.Node.recovered`, `ShapeSchema.Document.Relationship.recovered` — the node
  and the edge that a document speaks of.
* `ShapeSchema.Schema.Canonical` — schemas of which a document says everything.

## Main results

* `ShapeSchema.Document.nodes_recovered`, `ShapeSchema.Document.edges_recovered` — they are the
  nodes and the edges of the schema.
* `ShapeSchema.Schema.canonical_ofStatements` — schemas of closed statements.
* `ShapeSchema.Document.ofSchema_ofShapes_eq_iff` — schemas with one document.
-/

namespace ShapeSchema

/-! ## Parts of a document -/

namespace Document

/-- The constraint that a document speaks of. -/
def Property.recovered (p : Property) : Constraint where
  datatype := (Datatype.ofName p.datatype).toOption.getD .string
  cardinality := ⟨p.min.getD 0, p.max⟩

/-- A constraint is found again in what a document says about it. -/
theorem Property.recovered_ofConstraint (c : Constraint) : (ofConstraint c).recovered = c := by
  obtain ⟨datatype, ⟨min, max⟩⟩ := c
  have hmin : (if min > 0 then some min else none).getD 0 = min := by
    split
    · rfl
    · next h => exact (UInt64.le_zero_iff.1 (UInt64.not_lt.1 h)).symm
  rw [ofConstraint, recovered, Datatype.ofName_name, hmin]
  rfl

/-- The constraints that a document speaks of. -/
private theorem map_recovered_propertiesOf (constraints : Dict Constraint) :
    (propertiesOf constraints).map Property.recovered = constraints := by
  apply Dict.ext_get?
  intro name
  rw [propertiesOf, Dict.get?_map, Dict.get?_map, Option.map_map]
  cases constraints.get? name with
  | none => rfl
  | some c => exact congrArg some (Property.recovered_ofConstraint c)

/-- The node that a document speaks of. -/
def Node.recovered (n : Node) : Schema.Node where
  id := n.label
  labels := NameSet.add {} n.label
  constraints := n.properties.map Property.recovered

/-- The properties of an edge with the given bounds. -/
def boundsOf (min max : Option String) : Dict String :=
  .ofList ((min.map (Schema.Edge.minKey, ·)).toList ++ (max.map (Schema.Edge.maxKey, ·)).toList)

/-- Bounds are found under their own keys only. -/
private theorem get?_boundsOf (min max : Option String) (key : String) :
    (boundsOf min max).get? key =
      if key = Schema.Edge.maxKey then max else if key = Schema.Edge.minKey then min else none := by
  have hkeys : Schema.Edge.minKey ≠ Schema.Edge.maxKey := by decide
  cases min <;> cases max <;>
    simp only [boundsOf, Dict.ofList, Option.map_some, Option.map_none, Option.toList_some,
      Option.toList_none, List.cons_append, List.nil_append, List.foldl_cons, List.foldl_nil,
      Dict.get?_insert, Dict.get?_empty] <;>
    grind

/-- The edge that a document speaks of, without an identifier. -/
def Relationship.recovered (r : Relationship) : Schema.Edge where
  id := ""
  source := r.source
  target := r.target
  type := r.type
  constraints := r.properties.map Property.recovered
  properties := boundsOf r.min r.max

end Document

/-! ## Schemas -/

namespace Schema

/-- A document of the schema says everything but the identifiers of edges. -/
structure Canonical (S : Schema) : Prop where
  /-- The identifier of a node is its only label. -/
  labels : ∀ n ∈ S.nodes.entries, n.labels = NameSet.add {} n.id
  /-- A node has no values of its own. -/
  values : ∀ n ∈ S.nodes.entries, n.properties = {}
  /-- Edges lead from node to node. -/
  ends : ∀ e ∈ S.edges.entries, S.hasNode e.source ∧ S.hasNode e.target
  /-- Edges have no properties but their bounds. -/
  bounds : ∀ e ∈ S.edges.entries, ∀ key, key ≠ Edge.minKey → key ≠ Edge.maxKey →
    e.properties.get? key = none

variable {s : Statements}

/-- A cardinality that is given to an edge without properties leaves nothing but bounds. -/
private theorem get?_properties_edge (options : SchemaOptions) (f : RelationFact) (id : String)
    {key : String} (hmin : key ≠ Edge.minKey) (hmax : key ≠ Edge.maxKey) :
    (f.edge options s id).properties.get? key = none := by
  rw [RelationFact.edge, Edge.get?_setCardinality, if_neg hmin, if_neg hmax]
  rfl

/-- **Statements.** The schema of closed statements is canonical. -/
theorem canonical_ofStatements (options : SchemaOptions) (hc : s.Closed) :
    (ofStatements options s).Canonical where
  labels := by
    intro n hn
    rw [nodes_ofStatements] at hn
    obtain ⟨c, hcmem, rfl⟩ := List.mem_map.1 hn
    rw [Statements.nodeOf, ← hc.classes c hcmem]
  values := by
    intro n hn
    rw [nodes_ofStatements] at hn
    obtain ⟨c, -, rfl⟩ := List.mem_map.1 hn
    rfl
  ends := fun e he => hasNode_ends he
  bounds := by
    intro e he key hmin hmax
    obtain ⟨f, -, hbody⟩ := exists_body_eq he
    have hproperties : e.properties = (f.edge options s "").properties :=
      congrArg (·.properties) hbody
    rw [hproperties, get?_properties_edge options f "" hmin hmax]

end Schema

/-! ## Documents -/

namespace Document

variable {S T : Schema}

/-- A node with one label, its identifier, is recovered. -/
private theorem recovered_ofNode? {n : Schema.Node} (hlabels : n.labels = NameSet.add {} n.id)
    (hvalues : n.properties = {}) : (Node.ofNode? n).map Node.recovered = some n := by
  have hfirst : n.firstLabel? = some n.id := by rw [Schema.Node.firstLabel?, hlabels]; rfl
  rw [Node.ofNode?, hfirst, Option.map_some, Option.map_some, Node.recovered,
    map_recovered_propertiesOf, ← hlabels, ← hvalues]

/-- **Nodes** are recovered from the document of a canonical schema. -/
theorem nodes_recovered (h : S.Canonical) :
    (ofSchema S).nodes.map Node.recovered = S.nodes.entries := by
  rw [ofSchema, List.map_filterMap]
  have heach : ∀ n ∈ S.nodes.entries, (Node.ofNode? n).map Node.recovered = some n := fun n hn =>
    recovered_ofNode? (h.labels n hn) (h.values n hn)
  rw [List.filterMap_congr heach, List.filterMap_some]

/-- A document of a canonical schema refers to a node by its identifier. -/
private theorem labelOf_eq (h : S.Canonical) {id : String} (hid : S.hasNode id = true) :
    labelOf S id = id := by
  obtain ⟨n, hn⟩ := Option.isSome_iff_exists.1 hid
  obtain ⟨hmem, hkey⟩ := Registry.mem_of_find? hn
  have hfirst : n.firstLabel? = some n.id := by
    rw [Schema.Node.firstLabel?, h.labels n hmem]
    rfl
  rw [labelOf, Schema.node?, hn, Option.bind_some, hfirst]
  exact hkey

/-- Properties that are nothing but bounds are recovered. -/
private theorem boundsOf_get? {d : Dict String}
    (h : ∀ key, key ≠ Schema.Edge.minKey → key ≠ Schema.Edge.maxKey → d.get? key = none) :
    boundsOf (d.get? Schema.Edge.minKey) (d.get? Schema.Edge.maxKey) = d := by
  apply Dict.ext_get?
  intro key
  rw [get?_boundsOf]
  split
  · next hmax => rw [hmax]
  · next hmax =>
    split
    · next hmin => rw [hmin]
    · next hmin => exact (h key hmin hmax).symm

/-- **Edges** are recovered from the document of a canonical schema. -/
theorem edges_recovered (h : S.Canonical) :
    (ofSchema S).relationships.map Relationship.recovered =
      S.edges.entries.map Schema.Edge.body := by
  rw [ofSchema, List.map_map]
  refine List.map_congr_left fun e he => ?_
  obtain ⟨hsource, htarget⟩ := h.ends e he
  rw [Function.comp_apply, Relationship.ofEdge, Relationship.recovered, labelOf_eq h hsource,
    labelOf_eq h htarget, map_recovered_propertiesOf, boundsOf_get? (h.bounds e he)]
  rfl

/-- The document of a schema depends on its nodes and on its edges without their identifiers. -/
private theorem ofSchema_congr (hnodes : S.nodes.entries = T.nodes.entries)
    (hedges : S.edges.entries.map Schema.Edge.body = T.edges.entries.map Schema.Edge.body) :
    ofSchema S = ofSchema T := by
  have hregistry : S.nodes = T.nodes := Registry.ext_entries hnodes
  have hlabel : labelOf S = labelOf T := by
    funext id
    rw [labelOf, labelOf, Schema.node?, Schema.node?, hregistry]
  have hrelationships : ∀ U : Schema, (ofSchema U).relationships =
      (U.edges.entries.map Schema.Edge.body).map (Relationship.ofEdge U) := fun U => by
    rw [List.map_map]
    rfl
  have hedge : Relationship.ofEdge S = Relationship.ofEdge T := by
    funext e
    rw [Relationship.ofEdge, Relationship.ofEdge, hlabel]
  have hall : (ofSchema S).relationships = (ofSchema T).relationships := by
    rw [hrelationships, hrelationships, hedges, hedge]
  show (⟨S.nodes.entries.filterMap Node.ofNode?, (ofSchema S).relationships⟩ : Document) = _
  rw [hnodes, hall]
  rfl

/-- **Documents forget nothing.** Read any two graphs in any ways and make schemas of the statements
in any ways. The documents of the schemas are the same just if the schemas have the same nodes, with
their labels and constraints, and the same edges, with their ends, types, constraints and bounds, in
the same order and up to the identifiers of edges. -/
theorem ofSchema_ofShapes_eq_iff (reading reading' : ReadingOptions)
    (options options' : SchemaOptions) (g g' : Rdf.Graph) :
    let S := Schema.ofStatements options (Statements.ofShapes reading g)
    let T := Schema.ofStatements options' (Statements.ofShapes reading' g')
    ofSchema S = ofSchema T ↔
      S.nodes.entries = T.nodes.entries ∧
        S.edges.entries.map Schema.Edge.body = T.edges.entries.map Schema.Edge.body := by
  intro S T
  have hS : S.Canonical := Schema.canonical_ofStatements options
    (Statements.closed_ofShapes reading g)
  have hT : T.Canonical := Schema.canonical_ofStatements options'
    (Statements.closed_ofShapes reading' g')
  constructor
  · intro h
    rw [← nodes_recovered hS, ← nodes_recovered hT, ← edges_recovered hS, ← edges_recovered hT, h]
    exact ⟨rfl, rfl⟩
  · rintro ⟨hnodes, hedges⟩
    exact ofSchema_congr hnodes hedges

end Document

end ShapeSchema
