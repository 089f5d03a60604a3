import ShapeSchema.Proofs.Constraints
import ShapeSchema.Proofs.Registry

/-!
# The schema of statements in closed form

A schema is built by insertions. Every relationship between subjects that stand for classes gives
one edge, under the first identifier that is free, so no edge is ever replaced. Facts have distinct
identifiers, so every class gives one node as well and no constraint of a node is replaced. So the
schema is listed at once, and statements that say the same have the same schema up to order and the
identifiers of edges.

## Main definitions

* `ShapeSchema.Schema.Edge.body` — an edge without its identifier.
* `ShapeSchema.Schema.Same` — schemas that differ in order and in identifiers of edges at most.
* `ShapeSchema.Statements.nodeOf` — the node of a class.
* `ShapeSchema.Statements.Kept` — a relationship that becomes an edge.
* `ShapeSchema.RelationFact.outline` — what a relationship gives to its edge.

## Main results

* `ShapeSchema.Schema.freeNumber_least` — the first free identifier is found.
* `ShapeSchema.Schema.nodes_ofStatements`, `ShapeSchema.Schema.forall₂_edges_ofStatements` — the
  nodes and edges of a schema.
* `ShapeSchema.Schema.same_of_outlines`, `ShapeSchema.Schema.same_ofStatements` — the schema depends
  on what the statements say only.
-/

namespace ShapeSchema

/-! ## Comparing schemas -/

/-- Lists whose images under one map are permutations of each other are so under every other map
that depends on the image only. -/
private theorem perm_map_of_perm_map {α β γ δ : Type} {f : α → γ} {g : β → γ} {f' : α → δ}
    {g' : β → δ} {l : List α} {m : List β} (h : (l.map f).Perm (m.map g))
    (heq : ∀ a ∈ l, ∀ b ∈ m, f a = g b → f' a = g' b) : (l.map f').Perm (m.map g') := by
  induction l generalizing m with
  | nil =>
    rw [List.map_nil, List.nil_perm, List.map_eq_nil_iff] at h
    rw [h, List.map_nil, List.map_nil]
  | cons a l ih =>
    have hmem : f a ∈ m.map g := h.subset (by simp)
    obtain ⟨b, hb, hba⟩ := List.mem_map.1 hmem
    obtain ⟨m₁, m₂, rfl⟩ := List.append_of_mem hb
    have hmiddle : ((m₁ ++ b :: m₂).map g).Perm (g b :: (m₁ ++ m₂).map g) :=
      List.perm_middle.map g
    have htail : (l.map f).Perm ((m₁ ++ m₂).map g) := by
      have hcons := h.trans hmiddle
      rw [List.map_cons, hba] at hcons
      exact hcons.cons_inv
    have hsub : ∀ c ∈ m₁ ++ m₂, c ∈ m₁ ++ b :: m₂ := fun c hc =>
      List.perm_middle.mem_iff.2 (List.mem_cons_of_mem _ hc)
    have hrest := ih htail fun a ha c hc => heq a (List.mem_cons_of_mem _ ha) c (hsub c hc)
    rw [List.map_cons, heq a List.mem_cons_self b hb hba.symm]
    exact (hrest.cons (g' b)).trans (List.perm_middle.map g').symm

namespace Schema

/-- An edge without its identifier: its ends, its type, its constraints and its properties, among
them its cardinality. -/
def Edge.body (e : Edge) : Edge := { e with id := "" }

/-- Two schemas have the same nodes, and the same edges as often, up to order and the identifiers
of edges. -/
structure Same (a b : Schema) : Prop where
  /-- The nodes. -/
  nodes : a.nodes.entries.Perm b.nodes.entries
  /-- The edges. -/
  edges : (a.edges.entries.map Edge.body).Perm (b.edges.entries.map Edge.body)

/-- The order of the schemas does not matter. -/
theorem Same.symm {a b : Schema} (h : a.Same b) : b.Same a := ⟨h.nodes.symm, h.edges.symm⟩

/-- Schemas that are the same as a third one are the same. -/
theorem Same.trans {a b c : Schema} (hab : a.Same b) (hbc : b.Same c) : a.Same c :=
  ⟨hab.nodes.trans hbc.nodes, hab.edges.trans hbc.edges⟩

/-- Of two such schemas both are empty or neither. -/
theorem Same.isEmpty_eq {a b : Schema} (h : a.Same b) : a.isEmpty = b.isEmpty := by
  have hnodes := h.nodes.length_eq
  have hedges := h.edges.length_eq
  rw [List.length_map, List.length_map] at hedges
  rw [isEmpty, isEmpty, Bool.eq_iff_iff]
  simp only [Bool.and_eq_true, List.isEmpty_iff, ← List.length_eq_zero_iff, hnodes, hedges]

end Schema

/-! ## Nodes and edges of statements -/

namespace Statements

/-- The node of a class: its label is the local name of the class, and it has the constraints of the
properties of its subject. -/
def nodeOf (s : Statements) (c : ClassFact) : Schema.Node where
  id := c.subject
  labels := NameSet.add {} c.object.localName
  constraints := Dict.ofList (s.entriesOf c.subject)

/-- The label of a node is its identifier. -/
theorem labels_nodeOf {s : Statements} (hc : s.Closed) {c : ClassFact} (h : c ∈ s.classFacts) :
    (s.nodeOf c).labels.keys = [c.subject] := by
  rw [hc.classes c h]
  rfl

/-- The names of the constraints of a node are the names of the properties of its subject. -/
theorem mem_nodeOf_entries_iff {s : Statements} {c : ClassFact}
    {entry : String × Constraint} :
    entry ∈ (s.nodeOf c).constraints.entries ↔ ∃ p ∈ s.ownPropertyFacts, p.subject = c.subject ∧
      entry = (p.property.name, p.property.constraint) := by
  rw [← mem_entriesOf_iff, ← Dict.get?_eq_some_iff]
  exact Dict.get?_ofList_eq_some (s.nodup_entriesOf c.subject)

/-- Both ends of a relationship stand for classes, so that it becomes an edge. -/
def Kept (s : Statements) (f : RelationFact) : Prop :=
  s.HasSubject f.subject ∧ s.HasSubject f.object

instance (s : Statements) (f : RelationFact) : Decidable (s.Kept f) :=
  inferInstanceAs (Decidable (_ ∧ _))

/-- The relationships that become edges. -/
def keptFacts (s : Statements) : List RelationFact :=
  s.relationFacts.filter fun f => s.Kept f

/-- A relationship that becomes an edge is one of the relationships, and both its ends stand for
classes. -/
theorem of_mem_keptFacts {s : Statements} {f : RelationFact} (h : f ∈ s.keptFacts) :
    f ∈ s.relationFacts ∧ s.Kept f := by
  obtain ⟨hf, hkept⟩ := List.mem_filter.1 h
  exact ⟨hf, of_decide_eq_true hkept⟩

end Statements

/-! ## Outlines of relationships -/

namespace RelationFact

/-- What a relationship gives to its edge: what it says besides its properties, and the constraints
of these by their names. -/
def outline (f : RelationFact) : RelationFact × Dict Constraint :=
  ({ f with properties := [] }, Dict.ofList f.nestedEntries)

/-- The order of properties with distinct names makes no difference. -/
theorem ofList_nestedEntries_perm {f g : RelationFact} (hp : f.properties.Perm g.properties)
    (hnames : (f.properties.map Property.name).Nodup) :
    Dict.ofList f.nestedEntries = Dict.ofList g.nestedEntries := by
  refine Dict.ofList_perm (hp.map _) ?_
  rw [nestedEntries, List.map_map]
  exact hnames

end RelationFact

/-! ## Identifiers of edges -/

namespace RelationFact

/-- The identifiers for a relationship are distinct. -/
theorem edgeId_injective (f : RelationFact) : Function.Injective f.edgeId := by
  intro m n h
  have hlength : ∀ (text : String) (k : Nat), text ++ "_" ++ k.repr ≠ text := by
    intro text k heq
    have := congrArg String.length heq
    simp only [String.length_append] at this
    have hmark : "_".length = 1 := rfl
    omega
  unfold edgeId at h
  split at h <;> split at h
  · next hm hn => rw [hm, hn]
  · exact absurd h.symm (hlength _ _)
  · exact absurd h (hlength _ _)
  · rw [String.append_right_inj, Nat.repr_eq_ofList_toDigits, Nat.repr_eq_ofList_toDigits,
      String.ofList_inj] at h
    have hnumbers := congrArg (Nat.ofDigitChars 10 · 0) h
    simp only [Nat.ofDigitChars_ten_toDigits] at hnumbers
    exact Nat.succ.inj hnumbers

end RelationFact

namespace Schema

variable {options : SchemaOptions} {s t : Statements} {S : Schema}

/-- One of the first identifiers for a relationship is free.

**Proof sketch.** The candidates are distinct and there is one more of them than there are edges, so
not all of them can be taken. -/
private theorem exists_edge?_edgeId_eq_none (S : Schema) (f : RelationFact) :
    ∃ n ∈ List.range (S.edges.size + 1), S.edge? (f.edgeId n) = none := by
  by_contra hnone
  have htaken : (List.range (S.edges.size + 1)).map f.edgeId ⊆ S.edges.keys := by
    intro id hid
    obtain ⟨n, hn, rfl⟩ := List.mem_map.1 hid
    by_contra hnew
    exact hnone ⟨n, hn, Registry.find?_eq_none_iff.2 hnew⟩
  have hnodup : ((List.range (S.edges.size + 1)).map f.edgeId).Nodup :=
    List.nodup_range.map f.edgeId_injective
  have hlength := (hnodup.subperm htaken).length_le
  rw [List.length_map, List.length_range, Registry.keys, List.length_map, Registry.size] at hlength
  omega

/-- **Free identifiers.** The number that is chosen for a relationship is at most the number of
edges, the identifier with this number is free, and all identifiers before it are taken. -/
theorem freeNumber_least (S : Schema) (f : RelationFact) :
    S.freeNumber f ≤ S.edges.size ∧ S.edge? (f.edgeId (S.freeNumber f)) = none ∧
      ∀ m < S.freeNumber f, (S.edge? (f.edgeId m)).isSome := by
  have hfree : ∃ n ∈ List.range (S.edges.size + 1), (S.edge? (f.edgeId n)).isNone := by
    obtain ⟨n, hn, hnone⟩ := exists_edge?_edgeId_eq_none S f
    exact ⟨n, hn, Option.isNone_iff_eq_none.2 hnone⟩
  obtain ⟨n, hn⟩ := Option.isSome_iff_exists.1 (List.find?_isSome.2 hfree)
  have hnumber : S.freeNumber f = n := by rw [freeNumber, hn, Option.getD_some]
  obtain ⟨hnone, hrange, htaken⟩ := List.find?_range_eq_some.1 hn
  rw [hnumber]
  refine ⟨?_, Option.isNone_iff_eq_none.1 hnone, ?_⟩
  · have hlt := List.mem_range.1 hrange
    omega
  · intro m hm
    simpa using htaken m hm

/-- No edge has the identifier that is chosen for a relationship. -/
theorem edge?_freeId (S : Schema) (f : RelationFact) : S.edge? (S.freeId f) = none :=
  (freeNumber_least S f).2.1

/-- What every step keeps is kept in turn. -/
private theorem foldl_keeps {α β : Type} (part : Schema → β) {step : Schema → α → Schema}
    (h : ∀ S a, part (step S a) = part S) (l : List α) (S : Schema) :
    part (l.foldl step S) = part S := by
  induction l generalizing S with
  | nil => rfl
  | cons a l ih => rw [List.foldl_cons, ih, h]

/-! ## Nodes -/

/-- The node of a class before it has constraints. -/
def bareNode (c : ClassFact) : Node :=
  { id := c.subject, labels := NameSet.add {} c.object.localName }

/-- Classes with new subjects become nodes one after the other. -/
private theorem foldl_addClass {cs : List ClassFact}
    (h : (S.nodes.keys ++ cs.map (·.subject)).Nodup) :
    cs.foldl addClass S =
      { S with nodes := (cs.map bareNode).foldl Registry.insert S.nodes } := by
  induction cs generalizing S with
  | nil => rfl
  | cons c cs ih =>
    have hnew : c.subject ∉ S.nodes.keys := by
      intro hc
      exact (List.nodup_append.1 h).2.2 _ hc _ (by simp) rfl
    have hnode : S.nodeOrBare c.subject = { id := c.subject } := by
      rw [nodeOrBare, node?, Registry.find?_eq_none_iff.2 hnew, Option.getD_none]
    have hstep : S.addClass c = { S with nodes := S.nodes.insert (bareNode c) } := by
      rw [addClass, updateNode, hnode, insertNode]
      rfl
    have hkeys : (S.nodes.insert (bareNode c)).keys = S.nodes.keys ++ [c.subject] := by
      rw [Registry.keys_insert]
      exact if_neg hnew
    rw [List.foldl_cons, hstep, ih, List.map_cons, List.foldl_cons]
    rw [hkeys]
    simpa using h

/-- A node with the constraints of properties, one after the other. -/
def constrainAll (n : Node) (ps : List PropertyFact) : Node :=
  ps.foldl (fun n p => n.constrain p.property.name p.property.constraint) n

/-- Constraints are all that properties change in a node. -/
private theorem constrainAll_eq (n : Node) (ps : List PropertyFact) :
    constrainAll n ps = { n with
      constraints := (ps.map fun p => (p.property.name, p.property.constraint)).foldl
        (fun d e => d.insert e.1 e.2) n.constraints } := by
  induction ps generalizing n with
  | nil => rfl
  | cons p ps ih => exact ih _

/-- A node with the constraint of a property, if it is the node of its subject. -/
def constrainIfSubject (p : PropertyFact) (n : Node) : Node :=
  if n.id = p.subject then n.constrain p.property.name p.property.constraint else n

/-- A constraint leaves the identifier of a node alone. -/
private theorem id_constrainIfSubject (p : PropertyFact) (n : Node) :
    (constrainIfSubject p n).id = n.id := by
  unfold constrainIfSubject
  split <;> rfl

/-- A property changes the node of its subject and no other one. -/
private theorem addProperty_eq (S : Schema) (p : PropertyFact) :
    S.addProperty p =
      { S with nodes := S.nodes.map (constrainIfSubject p) (id_constrainIfSubject p) } := by
  unfold addProperty
  cases hnode : S.node? p.subject with
  | none =>
    have hother : ∀ n ∈ S.nodes.entries, constrainIfSubject p n = n := by
      intro n hn
      refine if_neg fun hid => Registry.find?_eq_none_iff.1 hnode ?_
      exact List.mem_map.2 ⟨n, hn, hid⟩
    have hnodes : S.nodes.map (constrainIfSubject p) (id_constrainIfSubject p) = S.nodes := by
      refine Registry.ext_entries ?_
      exact (List.map_congr_left hother).trans (List.map_id' _)
    rw [hnodes]
  | some n =>
    obtain ⟨hn, hid⟩ := Registry.mem_of_find? hnode
    change n.id = p.subject at hid
    have hplace := Registry.place_eq_map (a := n.constrain p.property.name p.property.constraint)
      S.nodes.nodup (List.mem_map.2 ⟨n, hn, rfl⟩)
    have heach : ∀ m ∈ S.nodes.entries, (if Keyed.key m =
          Keyed.key (n.constrain p.property.name p.property.constraint) then
          n.constrain p.property.name p.property.constraint else m) = constrainIfSubject p m := by
      intro m hm
      rw [constrainIfSubject, ← hid]
      by_cases hmn : m.id = n.id
      · rw [Registry.eq_of_key_eq hm hn hmn]
        rfl
      · exact (if_neg hmn).trans (if_neg hmn).symm
    rw [List.map_congr_left heach] at hplace
    have hnodes : S.nodes.insert (n.constrain p.property.name p.property.constraint) =
        S.nodes.map (constrainIfSubject p) (id_constrainIfSubject p) :=
      Registry.ext_entries hplace
    rw [← hnodes]
    rfl

/-- Properties change the nodes of their subjects. -/
private theorem entries_foldl_addProperty (S : Schema) (ps : List PropertyFact) :
    (ps.foldl addProperty S).nodes.entries =
      S.nodes.entries.map fun n => constrainAll n (ps.filter (·.subject = n.id)) := by
  induction ps generalizing S with
  | nil => simp [constrainAll]
  | cons p ps ih =>
    rw [List.foldl_cons, ih, addProperty_eq]
    show (S.nodes.entries.map (constrainIfSubject p)).map _ = _
    rw [List.map_map]
    refine List.map_congr_left fun n _ => ?_
    rw [Function.comp_apply, id_constrainIfSubject]
    by_cases hn : n.id = p.subject
    · simp [constrainIfSubject, hn, constrainAll]
    · simp [constrainIfSubject, hn, constrainAll, Ne.symm hn]

/-- The node that is meant by an identifier has it. -/
private theorem id_nodeOrBare (S : Schema) (id : String) : (S.nodeOrBare id).id = id := by
  rw [nodeOrBare, node?]
  cases hnode : S.nodes.find? id with
  | none => rfl
  | some n => exact (Registry.mem_of_find? hnode).2

/-- A class makes a node for its subject. -/
private theorem mem_keys_addClass {c : ClassFact} {k : String} :
    k ∈ (S.addClass c).nodes.keys ↔ k ∈ S.nodes.keys ∨ k = c.subject := by
  have hkey : Keyed.key ((S.nodeOrBare c.subject).addLabel c.object.localName) = c.subject :=
    id_nodeOrBare S c.subject
  rw [addClass, updateNode, insertNode, Registry.mem_keys_insert, hkey]

/-- Classes make nodes for their subjects. -/
private theorem mem_keys_foldl_addClass {cs : List ClassFact} {k : String} :
    k ∈ (cs.foldl addClass S).nodes.keys ↔ k ∈ S.nodes.keys ∨ ∃ c ∈ cs, c.subject = k := by
  induction cs generalizing S with
  | nil => simp
  | cons c cs ih =>
    rw [List.foldl_cons, ih, mem_keys_addClass, or_assoc, List.exists_mem_cons_iff, eq_comm]

/-- A property makes no node. -/
private theorem keys_addProperty (S : Schema) (p : PropertyFact) :
    (S.addProperty p).nodes.keys = S.nodes.keys := by
  unfold addProperty
  cases hnode : S.node? p.subject with
  | none => rfl
  | some n =>
    have hn : n.id ∈ S.nodes.keys := List.mem_map_of_mem (Registry.mem_of_find? hnode).1
    exact (Registry.keys_insert _ _).trans (if_pos hn)

/-- The schema of some statements when the given properties were taken in, behind all classes. -/
def afterProperties (s : Statements) (ps : List PropertyFact) : Schema :=
  ps.foldl addProperty (s.classFacts.foldl addClass ⟨statementsName, s.space, {}, {}⟩)

/-- When all of them were taken in, the relationships are next. -/
theorem afterProperties_ownPropertyFacts (s : Statements) :
    afterProperties s s.ownPropertyFacts = nodesOfStatements s := rfl

/-- Whatever properties were taken in, there is a node for every subject that stands for a class,
and for no other one. -/
theorem hasNode_afterProperties {ps : List PropertyFact} {subject : String} :
    (afterProperties s ps).hasNode subject = true ↔ s.HasSubject subject := by
  rw [hasNode, Registry.contains_iff, afterProperties,
    foldl_keeps (·.nodes.keys) keys_addProperty, mem_keys_foldl_addClass]
  exact or_iff_right List.not_mem_nil

/-- So it is when the relationships are next. -/
theorem hasNode_nodesOfStatements {subject : String} :
    (nodesOfStatements s).hasNode subject = true ↔ s.HasSubject subject :=
  afterProperties_ownPropertyFacts s ▸ hasNode_afterProperties

/-- Classes and properties make no edges. -/
theorem edges_nodesOfStatements (s : Statements) : (nodesOfStatements s).edges = {} := by
  have hclass : ∀ (S : Schema) c, (S.addClass c).edges = S.edges := fun S c => rfl
  have hproperty : ∀ (S : Schema) p, (S.addProperty p).edges = S.edges := by
    intro S p
    unfold addProperty
    split <;> rfl
  rw [nodesOfStatements, foldl_keeps edges hproperty, foldl_keeps edges hclass]

/-- The nodes of the classes and properties of statements. -/
theorem entries_nodesOfStatements (s : Statements) :
    (nodesOfStatements s).nodes.entries = s.classFacts.map s.nodeOf := by
  have hkeys : (s.classFacts.map bareNode).map Node.id = s.classFacts.map (·.subject) := by
    rw [List.map_map]
    rfl
  have hclasses : s.classFacts.foldl addClass ⟨statementsName, s.space, {}, {}⟩ =
      ⟨statementsName, s.space, Registry.ofList (s.classFacts.map bareNode), {}⟩ :=
    foldl_addClass (S := ⟨statementsName, s.space, {}, {}⟩) s.nodup_subjects
  rw [nodesOfStatements, hclasses, entries_foldl_addProperty,
    Registry.entries_ofList_of_nodup (hkeys ▸ s.nodup_subjects), List.map_map]
  refine List.map_congr_left fun c _ => ?_
  rw [Function.comp_apply, constrainAll_eq]
  rfl

/-! ## Edges -/

/-- The identifier of an edge is no part of its body. -/
private theorem body_edge (options : SchemaOptions) (s : Statements) (f : RelationFact)
    (id : String) :
    (f.edge options s id).body = f.edge options s "" := by
  obtain ⟨subject, predicate, object, target, ⟨min, max⟩, properties⟩ := f
  cases max <;> rfl

/-- The edge of a relationship has its ends and the identifier that is given. -/
theorem source_edge (options : SchemaOptions) (s : Statements) (f : RelationFact) (id : String) :
    (f.edge options s id).source = f.subject ∧ (f.edge options s id).target = f.object ∧
      (f.edge options s id).id = id := by
  obtain ⟨subject, predicate, object, target, ⟨min, max⟩, properties⟩ := f
  cases max <;> exact ⟨rfl, rfl, rfl⟩

/-- The edge of a relationship has its constraints. -/
theorem constraints_edge (options : SchemaOptions) (s : Statements) (f : RelationFact)
    (id : String) : (f.edge options s id).constraints = f.constraints options s := by
  obtain ⟨subject, predicate, object, target, ⟨min, max⟩, properties⟩ := f
  cases max <;> rfl

/-- The type of the edge of a relationship is made from the name. -/
theorem type_edge (options : SchemaOptions) (s : Statements) (f : RelationFact) (id : String) :
    (f.edge options s id).type = options.style.apply f.name := by
  obtain ⟨subject, predicate, object, target, ⟨min, max⟩, properties⟩ := f
  cases max <;> rfl

/-- An edge with a free identifier is put behind the others. -/
theorem entries_insert_edge {f : RelationFact} {n : Nat} (h : S.edge? (f.edgeId n) = none) :
    (S.edges.insert (f.edge options s (f.edgeId n))).entries =
      S.edges.entries ++ [f.edge options s (f.edgeId n)] := by
  refine Registry.entries_insert_of_notMem ?_
  show (f.edge options s (f.edgeId n)).id ∉ S.edges.keys
  rw [(source_edge options s f _).2.2]
  exact Registry.find?_eq_none_iff.1 h

/-- A relationship adds an edge, if both its ends are there. -/
theorem addRelation_eq (f : RelationFact) :
    S.addRelation options s f =
      if S.hasNode f.subject ∧ S.hasNode f.object then
        { S with edges := S.edges.insert (f.edge options s (S.freeId f)) }
      else S := by
  obtain ⟨hsource, htarget, -⟩ := source_edge options s f (S.freeId f)
  rw [addRelation, insertEdge, hsource, htarget]
  by_cases hs : S.hasNode f.subject = true
  · by_cases ht : S.hasNode f.object = true
    · simp only [hs, ht]
      rfl
    · simp [hs, ht]
  · simp [hs]

/-- An edge is that of a relationship, under one of the identifiers for it. -/
def GivesEdge (options : SchemaOptions) (s : Statements) (f : RelationFact) (e : Edge) : Prop :=
  ∃ n, e = f.edge options s (f.edgeId n)

/-- Up to its identifier, there is only one such edge. -/
private theorem map_body_of_givesEdge {fs : List RelationFact} {es : List Edge}
    (h : List.Forall₂ (GivesEdge options s) fs es) :
    es.map Edge.body = fs.map (·.edge options s "") := by
  induction h with
  | nil => rfl
  | cons hfe _ ih =>
    obtain ⟨n, rfl⟩ := hfe
    rw [List.map_cons, List.map_cons, ih, body_edge]

/-- Relationships leave the nodes alone and add their edges behind the others. -/
theorem foldl_addRelation (options : SchemaOptions) (s : Statements) (S : Schema)
    (fs : List RelationFact) :
    (fs.foldl (addRelation options s) S).nodes = S.nodes ∧
      ∃ es, (fs.foldl (addRelation options s) S).edges.entries = S.edges.entries ++ es ∧
        List.Forall₂ (GivesEdge options s)
          (fs.filter fun f => S.hasNode f.subject ∧ S.hasNode f.object) es := by
  induction fs generalizing S with
  | nil => exact ⟨rfl, [], by simp⟩
  | cons f fs ih =>
    obtain ⟨hnodes, es, hedges, hes⟩ := ih (S.addRelation options s f)
    rw [List.foldl_cons, hnodes, hedges]
    rw [addRelation_eq] at hes ⊢
    by_cases hf : S.hasNode f.subject ∧ S.hasNode f.object
    · rw [if_pos hf] at hes ⊢
      rw [List.filter_cons_of_pos (by simpa using hf)]
      refine ⟨rfl, f.edge options s (S.freeId f) :: es, ?_, ?_⟩
      · show (S.edges.insert (f.edge options s (f.edgeId (S.freeNumber f)))).entries ++ es = _
        rw [entries_insert_edge (freeNumber_least S f).2.1, List.append_assoc]
        rfl
      exact .cons ⟨S.freeNumber f, rfl⟩ hes
    · rw [if_neg hf] at hes ⊢
      rw [List.filter_cons_of_neg (by simpa using hf)]
      exact ⟨rfl, es, rfl, hes⟩

/-- The namespace of a schema is that of its statements. -/
theorem space_ofStatements (options : SchemaOptions) (s : Statements) :
    (ofStatements options s).space = s.space := by
  have hclass : ∀ (S : Schema) c, (S.addClass c).space = S.space := fun S c => rfl
  have hproperty : ∀ (S : Schema) p, (S.addProperty p).space = S.space := by
    intro S p
    unfold addProperty
    split <;> rfl
  have hrelation : ∀ (S : Schema) f, (S.addRelation options s f).space = S.space := by
    intro S f
    rw [addRelation_eq]
    split <;> rfl
  rw [ofStatements, foldl_keeps space hrelation, nodesOfStatements, foldl_keeps space hproperty,
    foldl_keeps space hclass]

/-- **Nodes.** The nodes of the schema of some statements. -/
theorem nodes_ofStatements (options : SchemaOptions) (s : Statements) :
    (ofStatements options s).nodes.entries = s.classFacts.map s.nodeOf := by
  rw [ofStatements, (foldl_addRelation _ _ _ _).1, entries_nodesOfStatements]

/-- The node of a class is in the schema. -/
theorem nodeOf_mem (options : SchemaOptions) {c : ClassFact}
    (h : c ∈ s.classFacts) : s.nodeOf c ∈ (ofStatements options s).nodes.entries := by
  rw [nodes_ofStatements]
  exact List.mem_map_of_mem h

/-- **Edges.** The edges of the schema of some statements are those of the relationships between
subjects that stand for classes, in their order. -/
theorem forall₂_edges_ofStatements (options : SchemaOptions) (s : Statements) :
    List.Forall₂ (GivesEdge options s) s.keptFacts (ofStatements options s).edges.entries := by
  obtain ⟨-, es, hedges, hes⟩ := foldl_addRelation options s (nodesOfStatements s) s.relationFacts
  have hkept : (s.relationFacts.filter fun f => (nodesOfStatements s).hasNode f.subject ∧
      (nodesOfStatements s).hasNode f.object) = s.keptFacts := by
    refine List.filter_congr fun f _ => ?_
    rw [decide_eq_decide, hasNode_nodesOfStatements, hasNode_nodesOfStatements]
    rfl
  rw [hkept] at hes
  rw [edges_nodesOfStatements] at hedges
  rw [ofStatements, hedges]
  exact hes

/-- The edges of the schema of some statements, without their identifiers. -/
theorem edges_ofStatements (options : SchemaOptions) (s : Statements) :
    (ofStatements options s).edges.entries.map Edge.body =
      s.keptFacts.map (·.edge options s "") :=
  map_body_of_givesEdge (forall₂_edges_ofStatements options s)

/-- Every edge is that of a relationship. -/
theorem exists_body_eq {e : Edge} (h : e ∈ (ofStatements options s).edges.entries) :
    ∃ f ∈ s.keptFacts, e.body = f.edge options s "" := by
  have hbody := List.mem_map_of_mem (f := Edge.body) h
  rw [edges_ofStatements] at hbody
  obtain ⟨f, hf, heq⟩ := List.mem_map.1 hbody
  exact ⟨f, hf, heq.symm⟩

/-! ## Statements that say the same -/

/-- Subjects with the same label and the same constraints have the same node. -/
theorem nodeOf_congr (hst : s.SameEntries t) {c d : ClassFact}
    (hsubject : c.subject = d.subject) (hlabel : c.object.localName = d.object.localName) :
    s.nodeOf c = t.nodeOf d := by
  have hentries := Dict.ofList_perm (hst d.subject) (s.nodup_entriesOf d.subject)
  rw [Statements.nodeOf, Statements.nodeOf, hsubject, hlabel, hentries]

/-- Relationships that agree in what edges are made of have the same edge. -/
theorem edge_congr {f g : RelationFact} (hname : f.name = g.name) (hsubject : f.subject = g.subject)
    (hobject : f.object = g.object) (hcardinality : f.cardinality = g.cardinality)
    (hconstraints : f.constraints options s = g.constraints options t) (id : String) :
    f.edge options s id = g.edge options t id := by
  rw [RelationFact.edge, RelationFact.edge, hname, hsubject, hobject, hcardinality, hconstraints]

/-- The same subjects stand for classes in statements that say the same. -/
theorem kept_iff (h : s.classFacts.Perm t.classFacts) (f : RelationFact) :
    s.Kept f ↔ t.Kept f := by
  simp only [Statements.Kept, Statements.HasSubject, h.mem_iff]

/-- Relationships that are the same up to order and up to some part of them become edges in the same
way, because their subjects and objects belong to the rest. -/
theorem keptFacts_perm {α : Type} {part : RelationFact → α} (h : s.classFacts.Perm t.classFacts)
    (hrelations : (s.relationFacts.map fun f => ({ f with properties := [] }, part f)).Perm
      (t.relationFacts.map fun f => ({ f with properties := [] }, part f))) :
    (s.keptFacts.map fun f => ({ f with properties := [] }, part f)).Perm
      (t.keptFacts.map fun f => ({ f with properties := [] }, part f)) := by
  have hfilter := hrelations.filter fun c => decide (s.Kept c.1)
  rw [List.filter_map, List.filter_map] at hfilter
  have ht : t.relationFacts.filter (fun f => decide (s.Kept f)) = t.keptFacts :=
    List.filter_congr fun f _ => decide_eq_decide.2 (kept_iff h f)
  rw [← ht]
  exact hfilter

/-- Relationships with the same outline have the same edge. -/
private theorem edge_eq_of_outline_eq (hst : s.SameEntries t) {f g : RelationFact}
    (h : f.outline = g.outline) : f.edge options s "" = g.edge options t "" := by
  simp only [RelationFact.outline, Prod.mk.injEq, RelationFact.mk.injEq] at h
  obtain ⟨⟨hsubject, hpredicate, hobject, -, hcardinality, -⟩, hnested⟩ := h
  have hname : f.name = g.name := by rw [RelationFact.name, RelationFact.name, hpredicate]
  exact edge_congr hname hsubject hobject hcardinality
    (RelationFact.constraints_congr hst hname hsubject hnested) ""

/-- **Order.** Statements with the same classes, the same constraints of subjects and relationships
of the same outlines have the same schema.

**Proof sketch.** Both schemas are listed in closed form. Nodes are compared class by class and
edges relationship by relationship; the constraints of a node or of an edge are found under their
names, and these are distinct. -/
theorem same_of_outlines (options : SchemaOptions)
    (hclasses : s.classFacts.Perm t.classFacts) (hentries : s.SameEntries t)
    (hkept : (s.keptFacts.map RelationFact.outline).Perm
      (t.keptFacts.map RelationFact.outline)) :
    (ofStatements options s).Same (ofStatements options t) := by
  constructor
  · rw [nodes_ofStatements, nodes_ofStatements]
    have hnode : s.nodeOf = t.nodeOf := by
      funext c
      exact nodeOf_congr hentries rfl rfl
    rw [hnode]
    exact hclasses.map _
  · rw [edges_ofStatements, edges_ofStatements]
    exact perm_map_of_perm_map hkept fun f _ g _ => edge_eq_of_outline_eq hentries

/-- Statements that say the same have the same schema, if no relationship that becomes an edge has
two properties of one name. -/
theorem same_ofStatements (options : SchemaOptions)
    (h : s.content.Perm t.content)
    (hnames : ∀ f ∈ s.keptFacts, (f.properties.map Property.name).Nodup) :
    (ofStatements options s).Same (ofStatements options t) := by
  have hclasses := Statements.classFacts_perm h
  have hcontents : (s.keptFacts.map RelationFact.content).Perm
      (t.keptFacts.map RelationFact.content) :=
    keptFacts_perm hclasses (Statements.relations_perm h)
  refine same_of_outlines options hclasses (Statements.sameEntries_of_content_perm h) ?_
  refine perm_map_of_perm_map hcontents fun f hf g _ hfg => ?_
  have hbare : ({ f with properties := [] } : RelationFact) = { g with properties := [] } :=
    congrArg Prod.fst hfg
  have hperm := RelationFact.perm_of_content_eq hfg
  exact Prod.ext hbare (RelationFact.ofList_nestedEntries_perm hperm (hnames f hf))

end Schema

end ShapeSchema
