import ShapeSchema.Proofs.Arrival

/-!
# Forests of property shapes

The shapes of some statements form a forest. Its roots are node shapes; a property and a
relationship become a blank node below a root, and a property of a relationship becomes a blank node
below that of the relationship. Every blank node has one owner, one path and one range.

## Main definitions

* `ShapeSchema.IsPropertyShape` — a blank node with its owner, its path and its range.
* `ShapeSchema.Fact.HasNodes` — the blank nodes of a fact.
* `ShapeSchema.Statements.IsForest` — what there is below the node shapes.

## Main results

* `ShapeSchema.Statements.hasNodes_of_mem_placed` — every fact has its blank nodes.
* `ShapeSchema.Statements.isForest_toShapes` — property shapes form a forest.
* `ShapeSchema.Statements.toShapes_ofList_forest` — the forest does not depend on the order of the
  facts.
-/

namespace ShapeSchema

open Rdf (BlankNode Subject Term Triple)

/-- A blank node is a property shape of its owner, with a path and a range. -/
structure IsPropertyShape (g : Set Triple) (owner : Subject) (b : BlankNode) (path : Iri)
    (range : ShapeRange) : Prop where
  /-- It belongs to its owner. -/
  owner : ⟨owner, Vocabulary.property, .blank b⟩ ∈ g
  /-- Its path. -/
  path : ⟨.blank b, Vocabulary.path, .iri path⟩ ∈ g
  /-- Its datatype or its class. -/
  range : range.triple (.blank b) ∈ g

/-- The blank nodes of a fact about the subject with the given shape: none for a class, one for a
property, and one for a relationship, behind which there is one for each of its properties. -/
inductive Fact.HasNodes (g : Set Triple) (shape : Iri) : Fact → List BlankNode → Prop where
  | ofClass {f : ClassFact} : HasNodes g shape (.ofClass f) []
  | ofProperty {f : PropertyFact} {b : BlankNode}
      (h : IsPropertyShape g (.iri shape) b f.property.predicate (.datatype f.property.datatype)) :
      HasNodes g shape (.ofProperty f) [b]
  | ofRelation {f : RelationFact} {b : BlankNode} {bs : List BlankNode}
      (h : IsPropertyShape g (.iri shape) b f.predicate (.ofClass f.target))
      (hs : List.Forall₂
        (fun p b' => IsPropertyShape g (.blank b) b' p.predicate (.datatype p.datatype))
        f.properties bs) :
      HasNodes g shape (.ofRelation f) (b :: bs)

namespace Statements

variable {s : Statements}

/-- What there is below the node shapes of some statements. -/
structure IsForest (s : Statements) (g : Set Triple) : Prop where
  /-- Property shapes belong to node shapes and to property shapes. -/
  owners : ∀ node value, ⟨node, Vocabulary.property, value⟩ ∈ g →
    ⟨node, Vocabulary.type, .iri Vocabulary.nodeShape⟩ ∈ g ∨
      ⟨node, Vocabulary.type, .iri Vocabulary.propertyShape⟩ ∈ g
  /-- The blank nodes are those of the facts with shapes, and no two of them have one. -/
  nodes : ∃ blocks : List (List BlankNode),
    List.Forall₂ (fun f block => f.2.HasNodes g f.1 block) s.minted blocks ∧
      blocks.flatten.Nodup ∧ ∀ b, b ∈ Rdf.blankNodes g ↔ b ∈ blocks.flatten
  /-- A blank node has one owner. -/
  owner : ∀ b ∈ Rdf.blankNodes g, ∃! owner, ⟨owner, Vocabulary.property, .blank b⟩ ∈ g
  /-- It has one path. -/
  path : ∀ b ∈ Rdf.blankNodes g, ∃! path, ⟨.blank b, Vocabulary.path, path⟩ ∈ g
  /-- It has one datatype and no class, or one class and no datatype. -/
  range : ∀ b ∈ Rdf.blankNodes g, ∃! range : Iri × Term,
    (range.1 = Vocabulary.datatype ∨ range.1 = Vocabulary.class) ∧
      ⟨.blank b, range.1, range.2⟩ ∈ g

/-- A property shape that was made is one. -/
private theorem isPropertyShape_of_mem_madeShapes {m : MadeShape} (hm : m ∈ s.madeShapes) :
    IsPropertyShape s.toShapes.toSet m.owner (.fresh m.number) m.path m.range where
  owner := property_mem_toShapes_iff.2 ⟨m, hm, rfl, rfl⟩
  path := path_mem_toShapes_iff.2 ⟨m, hm, rfl, rfl⟩
  range := by
    cases hrange : m.range with
    | datatype iri => exact datatype_mem_toShapes_iff.2 ⟨m, hm, iri, hrange, rfl, rfl⟩
    | ofClass iri => exact class_mem_toShapes_iff.2 ⟨m, hm, iri, hrange, rfl, rfl⟩

/-- The blank nodes of a fact in its place. -/
theorem hasNodes_of_mem_placed {p : PlacedFact} (hp : p ∈ s.placed) :
    p.fact.HasNodes s.toShapes.toSet p.shape (p.madeShapes.map (.fresh ·.number)) := by
  have hmade : ∀ m ∈ p.madeShapes, IsPropertyShape s.toShapes.toSet m.owner (.fresh m.number)
      m.path m.range := fun m hm =>
    isPropertyShape_of_mem_madeShapes (List.mem_flatMap.2 ⟨p, hp, hm⟩)
  obtain ⟨shape, number, fact⟩ := p
  cases fact with
  | ofClass c => exact .ofClass
  | ofProperty f => exact .ofProperty (hmade _ List.mem_cons_self)
  | ofRelation f =>
    refine .ofRelation (hmade _ List.mem_cons_self) ?_
    have hfst := List.zipIdx_map_fst (number + 1) f.properties
    conv_lhs => rw [← hfst]
    rw [madeShapesOf, List.map_map, List.forall₂_map_left_iff, List.forall₂_map_right_iff,
      List.forall₂_same]
    exact fun e he => hmade _ (List.mem_cons_of_mem _ (List.mem_map_of_mem he))

/-- **Forests.** Below the node shapes of some statements, every property, every relationship and
every property of a relationship has one blank node, and there are no others. -/
theorem isForest_toShapes (s : Statements) : s.IsForest s.toShapes.toSet where
  owners := by
    intro node value h
    obtain ⟨m, hm, rfl, -⟩ := property_mem_toShapes_iff.1 h
    rcases owner_of_mem_madeShapes hm with ⟨p, hp, hnode⟩ | ⟨n, hn, hnode⟩
    · exact .inl (nodeShape_mem_toShapes_iff.2 ⟨p, hp, hnode⟩)
    · refine .inr (mem_toShapes_iff.2 (.inr (.inr ⟨n, hn, MadeShape.mem_triples_iff.2 ?_⟩)))
      exact .inr (.inl (by rw [hnode]))
  nodes := by
    refine ⟨s.placed.map fun p => p.madeShapes.map (.fresh ·.number), ?_, ?_, ?_⟩
    · rw [← map_placed, List.forall₂_map_left_iff, List.forall₂_map_right_iff, List.forall₂_same]
      exact fun p hp => hasNodes_of_mem_placed hp
    · rw [← List.flatMap_def, ← List.map_flatMap]
      have hnodup := s.nodup_numbers.map fun a b h => BlankNode.fresh.inj h
      rwa [List.map_map] at hnodup
    · intro b
      rw [mem_blankNodes_toShapes_iff, ← List.flatMap_def, ← List.map_flatMap, List.mem_map]
      simp only [eq_comm (a := b)]
      rfl
  owner := by
    intro b hb
    obtain ⟨m, hm, rfl⟩ := mem_blankNodes_toShapes_iff.1 hb
    refine ⟨m.owner, (isPropertyShape_of_mem_madeShapes hm).owner, fun owner h => ?_⟩
    obtain ⟨n, hn, rfl, hnode⟩ := property_mem_toShapes_iff.1 h
    rw [eq_of_node_eq hm hn (Rdf.Subject.toTerm_injective hnode)]
  path := by
    intro b hb
    obtain ⟨m, hm, rfl⟩ := mem_blankNodes_toShapes_iff.1 hb
    refine ⟨.iri m.path, (isPropertyShape_of_mem_madeShapes hm).path, fun path h => ?_⟩
    obtain ⟨n, hn, hnode, rfl⟩ := path_mem_toShapes_iff.1 h
    rw [eq_of_node_eq hm hn hnode]
  range := by
    intro b hb
    obtain ⟨m, hm, rfl⟩ := mem_blankNodes_toShapes_iff.1 hb
    have hrange : ∀ predicate value,
        (predicate = Vocabulary.datatype ∨ predicate = Vocabulary.class) ∧
          ⟨m.node, predicate, value⟩ ∈ s.toShapes.toSet →
        m.range.triple m.node = ⟨m.node, predicate, value⟩ := by
      rintro predicate value ⟨rfl | rfl, h⟩
      · obtain ⟨n, hn, iri, hrange, hnode, rfl⟩ := datatype_mem_toShapes_iff.1 h
        rw [eq_of_node_eq hm hn hnode, hrange]
        rfl
      · obtain ⟨n, hn, iri, hrange, hnode, rfl⟩ := class_mem_toShapes_iff.1 h
        rw [eq_of_node_eq hm hn hnode, hrange]
        rfl
    have hsome := (isPropertyShape_of_mem_madeShapes hm).range
    refine ⟨((m.range.triple m.node).predicate, (m.range.triple m.node).object), ⟨?_, ?_⟩, ?_⟩
    · cases m.range with
      | datatype iri => exact .inl rfl
      | ofClass iri => exact .inr rfl
    · cases hm' : m.range <;> rw [hm'] at hsome <;> exact hsome
    · rintro ⟨predicate, value⟩ h
      rw [hrange predicate value h]

/-- **Order and shape.** Take any statements that were built by insertions. The same facts in any
order, with the properties of each relationship in any order, have the same graph up to the names of
blank nodes. In this graph, property shapes form a forest below the node shapes, whose blank nodes
are those of the properties, the relationships and the properties of relationships of the subjects
with shapes. -/
theorem toShapes_ofList_forest (name space : String) (facts : List Fact) :
    (∀ t : Statements, (ofList name space facts).Rearranged t →
      Rdf.SameUpToRenaming (ofList name space facts).toShapes.toSet t.toShapes.toSet) ∧
    (ofList name space facts).IsForest (ofList name space facts).toShapes.toSet :=
  ⟨fun _ h => toShapes_rearranged h, isForest_toShapes _⟩

/-- The facts about people may arrive backwards. -/
theorem toShapes_ofList_forest_peopleFacts :
    (ofList "people" "http://example.org/" peopleFacts).Rearranged
        (ofList "people" "http://example.org/" peopleFacts.reverse) ∧
      Rdf.SameUpToRenaming (ofList "people" "http://example.org/" peopleFacts).toShapes.toSet
        (ofList "people" "http://example.org/" peopleFacts.reverse).toShapes.toSet := by
  have hbackwards : (ofList "people" "http://example.org/" peopleFacts.reverse).toList =
      (ofList "people" "http://example.org/" peopleFacts).toList.reverse := by decide +kernel
  have h : (ofList "people" "http://example.org/" peopleFacts).Rearranged
      (ofList "people" "http://example.org/" peopleFacts.reverse) := by
    refine ⟨rfl, _, (List.reverse_perm _).symm, ?_⟩
    rw [hbackwards, List.forall₂_same]
    exact fun _ _ => rfl
  exact ⟨h, (toShapes_ofList_forest "people" "http://example.org/" peopleFacts).1 _ h⟩

end Statements

end ShapeSchema
