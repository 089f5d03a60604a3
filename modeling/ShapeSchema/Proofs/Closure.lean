import ShapeSchema.Proofs.Copies
import ShapeSchema.Proofs.Edges

/-!
# Schemas of what was read

When shapes are read, the classes of the node shapes come first, and everything else is about
subjects of these, whatever the shapes look like and whatever facts replace each other. Copies come
last and are about the subjects of their relationships.

So a schema takes in every property, and none of them takes the place of another one. Of the
relationships it leaves out just those to a class whose local name is that of no class of a node
shape. A node shape has one class: further values of `sh:targetClass` are passed over when it is
read, and then they are passed over here too.

## Main results

* `ShapeSchema.Statements.hasSubject_ofShapes_iff` — the subjects are those of the node shapes.
* `ShapeSchema.Statements.hasSubject_of_mem_propertyFacts` — properties are about subjects.
* `ShapeSchema.Schema.afterRelations_append_eq_iff` — the relationships that are left out.
* `ShapeSchema.Schema.ofStatements_ofShapes` — what a schema takes in.
-/

namespace ShapeSchema

open Rdf (Graph)

namespace Statements

variable {options : ReadingOptions} {g : Graph}

/-! ## Subjects -/

/-- **Subjects** that stand for a class are those of the node shapes. -/
theorem hasSubject_ofShapes_iff {subject : String} :
    (ofShapes options g).HasSubject subject ↔ ∃ n ∈ NodeShape.ofGraph g, n.subject = subject := by
  constructor
  · rintro ⟨c, hc, rfl⟩
    have hshape : .ofClass c ∈ (ofShapes options g).shapeFacts :=
      mem_shapeFacts_iff.2 ⟨mem_classFacts_iff.1 hc, rfl⟩
    rcases List.mem_append.1 (mem_allFacts_of_mem_shapeFacts hshape) with h | h
    · obtain ⟨n, hn, heq⟩ := List.mem_map.1 h
      cases heq
      exact ⟨n, hn, rfl⟩
    · obtain ⟨n, -, h⟩ := List.mem_flatMap.1 h
      obtain ⟨value, -, said, -, hsaid⟩ := mem_facts_iff.1 h
      cases said <;> cases hsaid
  · rintro ⟨n, hn, rfl⟩
    exact hasSubject_of_mem_ofGraph hn

/-- The subject of a copy is that of a relationship, and so it is that of a node shape. -/
theorem hasSubject_of_mem_copies {f : Fact} (h : f ∈ copies options g) :
    (ofShapes options g).HasSubject f.subject := by
  obtain ⟨-, r, hr, p, -, rfl⟩ := mem_copies_iff.1 h
  obtain ⟨n, hn, hr⟩ := List.mem_flatMap.1 (mem_facts_of_mem_allFacts hr)
  obtain ⟨value, -, said, -, hsaid⟩ := mem_facts_iff.1 hr
  cases said <;> cases hsaid
  exact hasSubject_of_mem_ofGraph hn

/-- **Properties**, copied or not, are about subjects that stand for a class. -/
theorem hasSubject_of_mem_propertyFacts {p : PropertyFact}
    (hp : p ∈ (ofShapes options g).propertyFacts) : (ofShapes options g).HasSubject p.subject := by
  have hmem := mem_propertyFacts_iff.1 hp
  cases hcopy : p.isCopy with
  | true => exact hasSubject_of_mem_copies (mem_copies_of_isCopy hmem hcopy)
  | false => exact (closed_ofShapes options g).hasSubject (mem_shapeFacts_iff.2 ⟨hmem, hcopy⟩)

end Statements

namespace Schema

variable {options : SchemaOptions} {s : Statements}

/-! ## Properties -/

/-- If all properties are about subjects that stand for a class, none is reported. -/
private theorem propertyOfUnknownSubject_notMem_notes (options : SchemaOptions)
    (h : ∀ p ∈ s.ownPropertyFacts, s.HasSubject p.subject) :
    .propertyOfUnknownSubject ∉ notesOfStatements options s := by
  have hproperties : (s.ownPropertyFacts.filter fun p =>
      !(nodesOfStatements s).hasNode p.subject) = [] := by
    rw [List.filter_eq_nil_iff]
    intro p hp
    simp [hasNode_nodesOfStatements.2 (h p hp)]
  have hrelation : ∀ (S : Schema) f, .propertyOfUnknownSubject ∉ S.relationNotes f := by
    intro S f
    unfold relationNotes
    split <;> split <;> simp
  have hrelations : ∀ (fs : List RelationFact) (S : Schema),
      .propertyOfUnknownSubject ∉ relationsNotes options s S fs := by
    intro fs
    induction fs with
    | nil => simp [relationsNotes]
    | cons f fs ih =>
      intro S
      rw [relationsNotes, List.mem_append, not_or]
      exact ⟨hrelation S f, ih _⟩
  unfold notesOfStatements
  simp only [hproperties, List.map_nil, List.nil_append]
  exact hrelations _ _

/-- Every property of a subject that stands for a class is a constraint of the node of the subject:
distinct properties have distinct names there, so that none takes the place of another one. -/
private theorem exists_constraint (options : SchemaOptions) {p : PropertyFact}
    (hp : p ∈ s.ownPropertyFacts) (hsubject : s.HasSubject p.subject) :
    ∃ n, (ofStatements options s).node? p.subject = some n ∧
      n.constraints.get? p.property.name = some p.property.constraint := by
  obtain ⟨c, hc, hcp⟩ := hsubject
  refine ⟨s.nodeOf c, ?_, ?_⟩
  · rw [← hcp]
    exact Registry.find?_of_mem (nodeOf_mem options hc)
  · rw [Dict.get?_eq_some_iff, Statements.mem_nodeOf_entries_iff]
    exact ⟨p, hp, hcp.symm, rfl⟩

/-! ## Relationships -/

/-- A relationship leaves the schema as it was just if one of its ends stands for no class. -/
theorem afterRelations_append_eq_iff {fs : List RelationFact} {f : RelationFact} :
    afterRelations options s (fs ++ [f]) = afterRelations options s fs ↔ ¬ s.Kept f := by
  rw [afterRelations_append]
  constructor
  · intro h hkept
    rw [if_pos hkept] at h
    have hlength := congrArg (fun S => S.edges.entries.length) h
    dsimp only at hlength
    rw [Schema.freeId, entries_insert_edge (edge?_freeId _ f), List.length_append] at hlength
    simp at hlength
  · exact fun hkept => if_neg hkept

/-- When shapes are read, the subject of a relationship stands for a class, so that it depends on
the object alone whether the relationship is taken in. -/
theorem kept_ofShapes_iff {reading : ReadingOptions} {g : Graph} {f : RelationFact}
    (hf : f ∈ (Statements.ofShapes reading g).relationFacts) :
    (Statements.ofShapes reading g).Kept f ↔
      ∃ n ∈ NodeShape.ofGraph g, n.target.localName = f.target.localName := by
  have hc := Statements.closed_ofShapes reading g
  have hobject : (Statements.ofShapes reading g).HasSubject f.object ↔ _ :=
    Statements.hasSubject_ofShapes_iff
  rw [Statements.Kept, hobject, hc.targets f hf]
  exact and_iff_right (hc.relations f hf)

/-- **What a schema takes in.** Read the shapes of any graph in any way and make a schema of the
statements.

* The statements are closed, and copied properties too are about subjects that stand for a class.
* When a property is taken in, the node of its subject is there, and none is reported as one of an
  unknown subject.
* Every property of a subject itself is a constraint of the node of the subject in the end.
* Every node has one label, which is its identifier.
* A relationship leaves the schema as it was just if no node shape has a class with the local name
  of the class that the relationship leads to; the edges represent the others, one by one and in
  their order. -/
theorem ofStatements_ofShapes (reading : ReadingOptions) (options : SchemaOptions) (g : Graph) :
    let s := Statements.ofShapes reading g
    let S := ofStatements options s
    (s.Closed ∧ ∀ p ∈ s.propertyFacts, s.HasSubject p.subject) ∧
      ((∀ p ∈ s.ownPropertyFacts, ∀ before,
          (afterProperties s before).hasNode p.subject = true) ∧
        .propertyOfUnknownSubject ∉ notesOfStatements options s) ∧
      (∀ p ∈ s.ownPropertyFacts, ∃ n, S.node? p.subject = some n ∧
        n.constraints.get? p.property.name = some p.property.constraint) ∧
      (∀ n ∈ S.nodes.entries, n.labels.keys = [n.id]) ∧
      (∀ before, ∀ f ∈ s.relationFacts,
        (afterRelations options s (before ++ [f]) = afterRelations options s before ↔
          ∀ n ∈ NodeShape.ofGraph g, n.target.localName ≠ f.target.localName)) ∧
      List.Forall₂ (fun f e => Edge.Represents options e f)
        (s.relationFacts.filter fun f =>
          ∃ n ∈ NodeShape.ofGraph g, n.target.localName = f.target.localName)
        S.edges.entries := by
  intro s S
  have hc := Statements.closed_ofShapes reading g
  refine ⟨⟨hc, fun p hp => Statements.hasSubject_of_mem_propertyFacts hp⟩, ⟨?_, ?_⟩, ?_, ?_, ?_, ?_⟩
  · exact fun p hp before => hasNode_afterProperties.2 (hc.properties p hp)
  · exact propertyOfUnknownSubject_notMem_notes options hc.properties
  · exact fun p hp => exists_constraint options hp (hc.properties p hp)
  · intro n hn
    rw [nodes_ofStatements] at hn
    obtain ⟨c, hcmem, rfl⟩ := List.mem_map.1 hn
    exact Statements.labels_nodeOf hc hcmem
  · intro before f hf
    rw [afterRelations_append_eq_iff, kept_ofShapes_iff hf]
    simp only [not_exists, not_and, ne_eq]
  · have hkept : (s.relationFacts.filter fun f =>
        ∃ n ∈ NodeShape.ofGraph g, n.target.localName = f.target.localName) = s.keptFacts := by
      refine List.filter_congr fun f hf => ?_
      rw [decide_eq_decide, kept_ofShapes_iff hf]
    rw [hkept]
    exact (forall₂_edges_ofStatements options s).imp fun _ _ => represents_of_givesEdge

end Schema

end ShapeSchema
