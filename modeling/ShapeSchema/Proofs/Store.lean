import ShapeSchema.Proofs.Table
import ShapeSchema.Schema.Store

/-!
# Stored schemas are well-formed

Whatever is done to a store, its tables stay indexed: keys are distinct, and the index has just the
place of each key. So no operation ever fails because an index leads behind the rows, and a store
behaves as the schema that it stands for. Nodes are never taken away, only replaced by nodes with
the same identifier, so the ends of an edge that was accepted stay in the table of nodes.

All this follows from what one operation does: a row goes to the end or takes the place of the one
with its key, or nothing happens at all.

## Main definitions

* `ShapeSchema.Store.WellFormed` — both tables are indexed, edges have ends, and constraints are
  kept under their names.
* `ShapeSchema.Store.Does` — what an operation does.

## Main results

* `ShapeSchema.Store.WellFormed.step` — every operation does what it should.
* `ShapeSchema.Store.Does.wellFormed`, `ShapeSchema.Store.Does.plain` — what it keeps, and what it
  does to the schema.
* `ShapeSchema.Store.wellFormed_run` — stores after any operations.
-/

namespace ShapeSchema

namespace Store

/-! ## Nodes and edges -/

/-- Constraints are kept under their names. -/
def Named (d : Dict NamedConstraint) : Prop := ∀ name c, d.get? name = some c → c.name = name

/-- Without constraints there is nothing to name. -/
theorem named_empty : Named {} := fun _ _ h => by cases h

/-- A constraint that is kept under its name. -/
theorem Named.insert {d : Dict NamedConstraint} (h : Named d) (c : NamedConstraint) :
    Named (d.insert c.name c) := by
  intro name c' hc'
  rw [Dict.get?_insert] at hc'
  split at hc'
  · next hname =>
    obtain rfl := Option.some.inj hc'
    exact hname.symm
  · exact h name c' hc'

namespace Node

/-- Changes leave the identifier of a node alone. -/
theorem id_change (n : Node) (changes : List NodeChange) : (n.change changes).id = n.id := by
  refine List.foldlRecOn (motive := fun m => m.id = n.id) (b := n) changes apply rfl
    fun m hm change _ => ?_
  cases change <;> exact hm

/-- Changes keep the constraints of a node under their names. -/
theorem named_change {n : Node} (h : Named n.constraints) (changes : List NodeChange) :
    Named (n.change changes).constraints := by
  refine List.foldlRecOn (motive := fun m => Named m.constraints) changes apply h
    fun m hm change _ => ?_
  cases change with
  | constrain c => exact hm.insert c
  | addLabel | setProperty => exact hm

/-- The names of constraints make no difference. -/
private theorem plain_change (n : Node) (changes : List NodeChange) :
    (n.change changes).plain = changes.foldl NodeChange.plain n.plain := by
  induction changes generalizing n with
  | nil => rfl
  | cons change changes ih =>
    have hstep : (n.apply change).plain = change.plain n.plain := by
      cases change with
      | constrain c =>
        simp only [apply, Node.plain, NodeChange.plain, Schema.Node.constrain, Dict.map_insert]
      | addLabel | setProperty => rfl
    rw [List.foldl_cons, ← hstep]
    exact ih (n.apply change)

/-- A node that is made, without the names of its constraints. -/
private theorem plain_make (id : String) (changes : List NodeChange) :
    (make id changes).plain = changes.foldl NodeChange.plain ⟨id, {}, {}, {}⟩ :=
  plain_change ⟨id, {}, {}, {}⟩ changes

end Node

namespace Edge

/-- Changes leave the identifier and the ends alone. -/
private theorem ends_change (e : Edge) (changes : List EdgeChange) :
    (e.change changes).id = e.id ∧ (e.change changes).source = e.source ∧
      (e.change changes).target = e.target := by
  refine List.foldlRecOn
    (motive := fun f => f.id = e.id ∧ f.source = e.source ∧ f.target = e.target) (b := e)
    changes apply ⟨rfl, rfl, rfl⟩ fun f hf change _ => ?_
  cases change with
  | setCardinality c =>
    obtain ⟨min, max⟩ := c
    cases max <;> exact hf
  | constrain | setProperty => exact hf

/-- Changes keep the constraints of an edge under their names. -/
private theorem named_change {e : Edge} (h : Named e.constraints) (changes : List EdgeChange) :
    Named (e.change changes).constraints := by
  refine List.foldlRecOn (motive := fun f => Named f.constraints) changes apply h
    fun f hf change _ => ?_
  cases change with
  | constrain c => exact hf.insert c
  | setProperty => exact hf
  | setCardinality c =>
    obtain ⟨min, max⟩ := c
    cases max <;> exact hf

/-- The names of constraints make no difference. -/
private theorem plain_change (e : Edge) (changes : List EdgeChange) :
    (e.change changes).plain = changes.foldl EdgeChange.plain e.plain := by
  induction changes generalizing e with
  | nil => rfl
  | cons change changes ih =>
    have hstep : (e.apply change).plain = change.plain e.plain := by
      cases change with
      | constrain c =>
        simp only [apply, Edge.plain, EdgeChange.plain, Schema.Edge.constrain, Dict.map_insert]
      | setProperty => rfl
      | setCardinality c =>
        obtain ⟨min, max⟩ := c
        cases max <;> rfl
    rw [List.foldl_cons, ← hstep]
    exact ih (e.apply change)

/-- An edge that is made has the identifier and the ends that are given. -/
private theorem ends_make (id source target type : String) (changes : List EdgeChange) :
    (make id source target type changes).id = id ∧
      (make id source target type changes).source = source ∧
      (make id source target type changes).target = target :=
  ends_change ⟨id, source, target, type, {}, {}⟩ changes

/-- An edge that is made, without the names of its constraints. -/
private theorem plain_make (id source target type : String) (changes : List EdgeChange) :
    (make id source target type changes).plain =
      changes.foldl EdgeChange.plain ⟨id, source, target, type, {}, {}⟩ :=
  plain_change ⟨id, source, target, type, {}, {}⟩ changes

end Edge

/-! ## Stores -/

variable {S S' : Store} {op : Op} {answer : Answer}

/-- Both tables are indexed, the ends of edges are nodes, and constraints are kept under their
names. -/
structure WellFormed (S : Store) : Prop where
  /-- Nodes have distinct identifiers, and their index is right. -/
  nodes : S.nodes.Indexed
  /-- Edges have distinct identifiers, and their index is right. -/
  edges : S.edges.Indexed
  /-- The ends of every edge are nodes. -/
  ends : ∀ e ∈ S.edges.rows, e.source ∈ S.nodes.keys ∧ e.target ∈ S.nodes.keys
  /-- The constraints of nodes are kept under their names. -/
  nodeNames : ∀ n ∈ S.nodes.rows, Named n.constraints
  /-- The constraints of edges are kept under their names. -/
  edgeNames : ∀ e ∈ S.edges.rows, Named e.constraints

/-- What an operation does, with its answer. -/
inductive Does (S : Store) : Op → Answer → Store → Prop where
  /-- A new node is put in, and the one in whose place it stands is handed back. -/
  | addNode {id : String} {changes : List NodeChange} {old : Option Node} {nodes : Table Node}
      (h : S.nodes.Puts (.make id changes) old nodes) :
      Does S (.addNode id changes) (.added old) { S with nodes := nodes }
  /-- A node is changed in its place, or a changed bare one goes to the end. -/
  | handleOrNew {id : String} {changes : List NodeChange} {old : Option Node} {nodes : Table Node}
      (hid : ∀ n ∈ old, n.id = id)
      (h : S.nodes.Puts ((old.getD ⟨id, {}, {}, {}⟩).change changes) old nodes) :
      Does S (.handleOrNew id changes) (.found (old.getD ⟨id, {}, {}, {}⟩))
        { S with nodes := nodes }
  /-- A node is changed in its place. -/
  | handle {id : String} {changes : List NodeChange} {n : Node} {nodes : Table Node}
      (hid : n.id = id) (h : S.nodes.Puts (n.change changes) (some n) nodes) :
      Does S (.handle id changes) (.found (some n)) { S with nodes := nodes }
  /-- There is no handle on a missing node, and nothing happens. -/
  | noHandle {id : String} {changes : List NodeChange} (h : id ∉ S.nodes.keys) :
      Does S (.handle id changes) (.found none) S
  /-- An edge between nodes is put in. -/
  | addEdge {id source target type : String} {changes : List EdgeChange} {old : Option Edge}
      {edges : Table Edge} (hsource : source ∈ S.nodes.keys) (htarget : target ∈ S.nodes.keys)
      (h : S.edges.Puts (.make id source target type changes) old edges) :
      Does S (.addEdge id source target type changes) (.edge (.ok ())) { S with edges := edges }
  /-- The source of an edge is missing. This is reported whether or not the target is missing too,
  and nothing happens. -/
  | noSource {id source target type : String} {changes : List EdgeChange}
      (hsource : source ∉ S.nodes.keys) :
      Does S (.addEdge id source target type changes) (.edge (.error ⟨id, source⟩)) S
  /-- Only the target of an edge is missing. This is reported, and nothing happens. -/
  | noTarget {id source target type : String} {changes : List EdgeChange}
      (hsource : source ∈ S.nodes.keys) (htarget : target ∉ S.nodes.keys) :
      Does S (.addEdge id source target type changes) (.edge (.error ⟨id, target⟩)) S

namespace WellFormed

/-- A node with well-kept constraints may be put in: no edge loses an end. -/
theorem withNodes (h : S.WellFormed) {n : Node} {old : Option Node} {nodes : Table Node}
    (hp : S.nodes.Puts n old nodes) (hn : Named n.constraints) :
    WellFormed { S with nodes := nodes } where
  nodes := hp.indexed h.nodes
  edges := h.edges
  ends := by
    intro e he
    obtain ⟨hsource, htarget⟩ := h.ends e he
    exact ⟨hp.mem_keys hsource, hp.mem_keys htarget⟩
  nodeNames := by
    intro m hm
    rcases hp.of_mem hm with hm | rfl
    · exact h.nodeNames m hm
    · exact hn
  edgeNames := h.edgeNames

/-- An edge between nodes may be put in. -/
theorem withEdges (h : S.WellFormed) {e : Edge} {old : Option Edge} {edges : Table Edge}
    (hp : S.edges.Puts e old edges) (he : Named e.constraints)
    (hsource : e.source ∈ S.nodes.keys) (htarget : e.target ∈ S.nodes.keys) :
    WellFormed { S with edges := edges } where
  nodes := h.nodes
  edges := hp.indexed h.edges
  ends := by
    intro f hf
    rcases hp.of_mem hf with hf | rfl
    · exact h.ends f hf
    · exact ⟨hsource, htarget⟩
  nodeNames := h.nodeNames
  edgeNames := by
    intro f hf
    rcases hp.of_mem hf with hf | rfl
    · exact h.edgeNames f hf
    · exact he

/-- The index knows the nodes of the table. -/
theorem hasNode_iff (h : S.WellFormed) {id : String} : S.hasNode id = true ↔ id ∈ S.nodes.keys :=
  h.nodes.contains_iff

/-- **One operation.** Every operation has a result and does what it should. -/
theorem step (h : S.WellFormed) (op : Op) :
    ∃ answer S', S.step op = some (answer, S') ∧ Does S op answer S' := by
  cases op with
  | addNode id changes =>
    obtain ⟨old, nodes, hput, hp⟩ := h.nodes.put (Node.make id changes)
    refine ⟨_, _, ?_, .addNode hp⟩
    rw [Store.step, Store.addNode, hput]
    rfl
  | handleOrNew id changes =>
    obtain ⟨old, nodes, hput, hid, hp⟩ := h.nodes.changeOrPush (⟨id, {}, {}, {}⟩ : Node)
      fun n => Node.id_change n changes
    refine ⟨_, _, ?_, .handleOrNew hid hp⟩
    rw [Store.step, Store.changeOrAddNode, hput]
    rfl
  | handle id changes =>
    rcases h.nodes.change id fun n => Node.id_change n changes with
      ⟨hnew, hput⟩ | ⟨n, nodes, hput, hid, hp⟩
    · refine ⟨_, _, ?_, .noHandle hnew⟩
      rw [Store.step, Store.changeNode, hput]
      rfl
    · refine ⟨_, _, ?_, .handle hid hp⟩
      rw [Store.step, Store.changeNode, hput]
      rfl
  | addEdge id source target type changes =>
    obtain ⟨hid, hsource, htarget⟩ := Edge.ends_make id source target type changes
    rw [Store.step, Store.addEdge, hid, hsource, htarget]
    by_cases hs : source ∈ S.nodes.keys
    · by_cases ht : target ∈ S.nodes.keys
      · obtain ⟨old, edges, hput, hp⟩ := h.edges.put (Edge.make id source target type changes)
        refine ⟨_, _, ?_, .addEdge hs ht hp⟩
        simp [h.hasNode_iff.2 hs, h.hasNode_iff.2 ht, hput]
      · refine ⟨_, _, ?_, .noTarget hs ht⟩
        have hno : S.hasNode target = false := Bool.eq_false_iff.2 (h.hasNode_iff.not.2 ht)
        simp [h.hasNode_iff.2 hs, hno]
    · refine ⟨_, _, ?_, .noSource hs⟩
      have hno : S.hasNode source = false := Bool.eq_false_iff.2 (h.hasNode_iff.not.2 hs)
      simp [hno]

end WellFormed

namespace Does

/-- What an operation does keeps a store well-formed. -/
theorem wellFormed (hd : Does S op answer S') (h : S.WellFormed) : S'.WellFormed := by
  cases hd with
  | addNode hp => exact h.withNodes hp (Node.named_change named_empty _)
  | @handleOrNew id changes old nodes hid hp =>
    have hold : Named (old.getD ⟨id, {}, {}, {}⟩).constraints := by
      cases hp with
      | push _ => exact named_empty
      | set hb _ => exact h.nodeNames _ (List.mem_of_getElem? hb)
    exact h.withNodes hp (Node.named_change hold _)
  | handle hid hp =>
    cases hp with
    | set hb hkey =>
      exact h.withNodes (.set hb hkey)
        (Node.named_change (h.nodeNames _ (List.mem_of_getElem? hb)) _)
  | noHandle _ => exact h
  | @addEdge id source target type changes old edges hsource htarget hp =>
    obtain ⟨-, hs, ht⟩ := Edge.ends_make id source target type changes
    exact h.withEdges hp (Edge.named_change named_empty _) (by rwa [hs]) (by rwa [ht])
  | noSource _ => exact h
  | noTarget _ _ => exact h

end Does

/-! ## The schema that is stored -/

/-- A node of the schema is one of the table without the names of constraints. -/
theorem node?_plain (S : Store) (id : String) :
    S.plain.node? id = (S.nodes.registry.find? id).map Node.plain :=
  Registry.find?_map Node.key_plain S.nodes.registry id

namespace WellFormed

/-- The schema has all nodes of the table. -/
theorem nodes_plain (h : S.WellFormed) :
    S.plain.nodes.entries = S.nodes.rows.map Node.plain := by
  rw [← h.nodes.entries_registry]
  rfl

/-- The schema has all edges of the table. -/
theorem edges_plain (h : S.WellFormed) :
    S.plain.edges.entries = S.edges.rows.map Edge.plain := by
  rw [← h.edges.entries_registry]
  rfl

/-- The schema has no other nodes. -/
theorem hasNode_plain (h : S.WellFormed) {id : String} :
    S.plain.hasNode id = true ↔ id ∈ S.nodes.keys := by
  have hkeys : S.plain.nodes.keys = S.nodes.keys := by
    rw [Registry.keys, h.nodes_plain, List.map_map]
    rfl
  rw [Schema.hasNode, Registry.contains_iff, hkeys]

/-- There is no node in the schema that is not in the table. -/
theorem node?_plain_eq_none (h : S.WellFormed) {id : String} (hid : id ∉ S.nodes.keys) :
    S.plain.node? id = none := by
  rw [node?_plain, Registry.find?_eq_none_iff.2 (h.nodes.keys_registry ▸ hid), Option.map_none]

/-- The schema with a node that was put in. -/
theorem plain_withNodes (h : S.WellFormed) {n : Node} {old : Option Node} {nodes : Table Node}
    (hp : S.nodes.Puts n old nodes) :
    Store.plain { S with nodes := nodes } = S.plain.insertNode n.plain := by
  have hinsert : nodes.registry.map Node.plain Node.key_plain = S.plain.nodes.insert n.plain := by
    rw [hp.registry_eq h.nodes]
    exact Registry.map_insert _ _ n
  rw [Schema.insertNode, ← hinsert]
  rfl

/-- The schema with an edge that was put in. -/
theorem plain_withEdges (h : S.WellFormed) {e : Edge} {old : Option Edge} {edges : Table Edge}
    (hp : S.edges.Puts e old edges) (hsource : e.source ∈ S.nodes.keys)
    (htarget : e.target ∈ S.nodes.keys) :
    S.plain.insertEdge e.plain = .ok (Store.plain { S with edges := edges }) := by
  have hinsert : edges.registry.map Edge.plain Edge.key_plain = S.plain.edges.insert e.plain := by
    rw [hp.registry_eq h.edges]
    exact Registry.map_insert _ _ e
  have hs : S.plain.hasNode e.plain.source = true := h.hasNode_plain.2 hsource
  have ht : S.plain.hasNode e.plain.target = true := h.hasNode_plain.2 htarget
  rw [Schema.insertEdge, hs, ht, ← hinsert]
  rfl

end WellFormed

/-- What an operation does is what it does to the schema that is stored. -/
theorem Does.plain (hd : Does S op answer S') (h : S.WellFormed) :
    S'.plain = op.plain S.plain := by
  cases hd with
  | @addNode id changes old nodes hp =>
    rw [h.plain_withNodes hp, Node.plain_make]
    rfl
  | @handleOrNew id changes old nodes hid hp =>
    have hkey : Keyed.key ((old.getD ⟨id, {}, {}, {}⟩).change changes) = id := by
      refine (Node.id_change _ _).trans ?_
      cases old with
      | none => rfl
      | some n => exact hid n rfl
    have hfound := hp.find?_eq h.nodes
    rw [hkey] at hfound
    have hnode : S.plain.nodeOrBare id = (old.getD ⟨id, {}, {}, {}⟩).plain := by
      rw [Schema.nodeOrBare, node?_plain, hfound]
      cases old <;> rfl
    rw [h.plain_withNodes hp, Node.plain_change, Op.plain, Schema.updateNode, hnode]
  | @handle id changes n nodes hid hp =>
    have hfound := hp.find?_eq h.nodes
    rw [show Keyed.key (n.change changes) = id from (Node.id_change n changes).trans hid] at hfound
    rw [h.plain_withNodes hp, Node.plain_change, Op.plain, node?_plain, hfound]
    rfl
  | noHandle hid => rw [Op.plain, h.node?_plain_eq_none hid]
  | @addEdge id source target type changes old edges hsource htarget hp =>
    obtain ⟨-, hs, ht⟩ := Edge.ends_make id source target type changes
    have hinsert := h.plain_withEdges hp (by rwa [hs]) (by rwa [ht])
    rw [Edge.plain_make] at hinsert
    rw [Op.plain, hinsert]
  | @noSource id source target type changes hsource =>
    have hs : (Edge.make id source target type changes).plain.source = source :=
      (Edge.ends_make id source target type changes).2.1
    have hno := Bool.eq_false_iff.2 (h.hasNode_plain.not.2 hsource)
    rw [Op.plain, ← Edge.plain_make, Schema.insertEdge, hs, hno]
    rfl
  | @noTarget id source target type changes hsource htarget =>
    have hs : (Edge.make id source target type changes).plain.source = source :=
      (Edge.ends_make id source target type changes).2.1
    have ht : (Edge.make id source target type changes).plain.target = target :=
      (Edge.ends_make id source target type changes).2.2
    have hno := Bool.eq_false_iff.2 (h.hasNode_plain.not.2 htarget)
    rw [Op.plain, ← Edge.plain_make, Schema.insertEdge, hs, ht, h.hasNode_plain.2 hsource, hno]
    rfl

/-! ## Any operations -/

/-- **Any operations** have a result. It is well-formed if the store was so before, and it stands
for the schema after the same operations. -/
theorem WellFormed.run (h : S.WellFormed) (ops : List Op) :
    ∃ S', S.run ops = some S' ∧ S'.WellFormed ∧ S'.plain = ops.foldl Op.plain S.plain := by
  induction ops generalizing S with
  | nil => exact ⟨S, rfl, h, rfl⟩
  | cons op ops ih =>
    obtain ⟨answer, T, hstep, hd⟩ := h.step op
    obtain ⟨S', hrun, hS', hplain⟩ := ih (hd.wellFormed h)
    refine ⟨S', ?_, hS', ?_⟩
    · rw [Store.run, hstep]
      exact hrun
    · rw [hplain, hd.plain h, List.foldl_cons]

/-- An empty store is well-formed. -/
theorem wellFormed_empty (name space : String) : WellFormed ⟨name, space, {}, {}⟩ where
  nodes := Table.indexed_empty
  edges := Table.indexed_empty
  ends := fun _ he => absurd he List.not_mem_nil
  nodeNames := fun _ hn => absurd hn List.not_mem_nil
  edgeNames := fun _ he => absurd he List.not_mem_nil

/-- **Stores.** After any operations on an empty store,

* identifiers are distinct and the indexes of nodes and of edges have just the place of each, both
  ends of every edge are nodes, and every constraint is kept under its name;
* the store stands for the schema that the same operations make of an empty schema;
* any further operation has a result and does just what it should: what it puts in stands where the
  one with its identifier stood or at the end, everything else stays where it is, and a refused
  edge, whose source is looked for first, changes nothing. -/
theorem wellFormed_run (name space : String) (ops : List Op) :
    ∃ S : Store, Store.run ⟨name, space, {}, {}⟩ ops = some S ∧ S.WellFormed ∧
      S.plain = ops.foldl Op.plain ⟨name, space, {}, {}⟩ ∧
      ∀ op, ∃ answer S', S.step op = some (answer, S') ∧ Does S op answer S' := by
  obtain ⟨S, hrun, hS, hplain⟩ := (wellFormed_empty name space).run ops
  exact ⟨S, hrun, hS, hplain, hS.step⟩

/-- The first edge comes before its target and is refused, and the node that comes again keeps its
place. -/
example :
    (run ⟨"knows", "http://example.org/", {}, {}⟩
      [.addNode "Person" [], .addEdge "e" "Person" "Dog" "OWNS" [], .handleOrNew "Dog" [],
        .addNode "Person" [.addLabel "Person"], .addEdge "f" "Person" "Dog" "OWNS" []]).map
      (fun S => (S.nodes.keys, S.edges.keys)) = some (["Person", "Dog"], ["f"]) := by
  decide +kernel

end Store

end ShapeSchema
