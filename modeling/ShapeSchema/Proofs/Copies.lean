import ShapeSchema.Proofs.Lowering
import ShapeSchema.Proofs.Reading

/-!
# Copied properties

Where copies are asked for, the properties of relationships are also told as properties of the
subjects of these. Copies are added when everything else has been read, behind all other facts and
never in the place of one. The schema and the shapes of statements are made of the facts that are no
copies, so nobody sees whether copies were asked for.

A copy belongs to a relationship that some property shape states. When a later property shape states
a relationship with the same identifier, that one takes its place, and the copies of the earlier one
stay. So a copy may belong to a relationship that is no longer there.

## Main definitions

* `ShapeSchema.NodeShape.relations` — the relationships that the shapes of a graph state.
* `ShapeSchema.RelationsAgree` — of those with one identifier it does not matter which one stays.

## Main results

* `ShapeSchema.Schema.ofStatements_eq_of_shapeFacts_eq`,
  `ShapeSchema.Statements.toShapes_eq_of_shapeFacts_eq` — copies are passed over.
* `ShapeSchema.Statements.ofShapes_with_copies` — what asking for copies changes.
* `ShapeSchema.Statements.exists_relation_of_copy` — copies and their relationships.
* `ShapeSchema.Statements.exists_copy_without_relation` — a copy without its relationship.
-/

namespace ShapeSchema

open Rdf (Graph Subject Triple)

/-! ## Facts that are no copies -/

namespace Statements

variable {s t : Statements}

/-- Relationships are no copies. -/
private theorem relationFacts_eq_filterMap_shapeFacts (s : Statements) :
    s.relationFacts = s.shapeFacts.filterMap Fact.relation? := by
  rw [relationFacts, shapeFacts, List.filterMap_filter]
  refine List.filterMap_congr fun f _ => ?_
  cases f <;> simp [Fact.relation?, Fact.isCopy]

/-- The facts of each kind that are no copies belong to the facts that shapes are made of. -/
private theorem facts_eq_of_shapeFacts_eq (h : s.shapeFacts = t.shapeFacts) :
    s.classFacts = t.classFacts ∧ s.ownPropertyFacts = t.ownPropertyFacts ∧
      s.relationFacts = t.relationFacts := by
  have hcontent : s.content = t.content := by rw [content, content, h]
  refine ⟨?_, ?_, ?_⟩
  · rw [classFacts_eq_filterMap_content, hcontent, ← classFacts_eq_filterMap_content]
  · rw [ownPropertyFacts_eq_filterMap_content, hcontent, ← ownPropertyFacts_eq_filterMap_content]
  · rw [relationFacts_eq_filterMap_shapeFacts, h, ← relationFacts_eq_filterMap_shapeFacts]

/-- **Shapes** are made of the facts that are no copies. -/
theorem toShapes_eq_of_shapeFacts_eq (hspace : s.space = t.space)
    (h : s.shapeFacts = t.shapeFacts) : s.toShapes = t.toShapes := by
  have hiri : s.shapeIri? = t.shapeIri? := by
    funext subject
    rw [shapeIri?, shapeIri?, (facts_eq_of_shapeFacts_eq h).1, hspace]
  have htriples : ∀ (fs : List Fact) (number : Nat),
      s.triplesOf number fs = t.triplesOf number fs := by
    intro fs
    induction fs with
    | nil => exact fun _ => rfl
    | cons f fs ih =>
      intro number
      simp only [triplesOf, hiri, ih]
  rw [toShapes, toShapes, h, htriples]

end Statements

namespace Schema

variable {s t : Statements}

/-- Nodes are made of the classes and of the properties of subjects themselves. -/
private theorem nodesOfStatements_congr (hspace : s.space = t.space)
    (hclasses : s.classFacts = t.classFacts)
    (hproperties : s.ownPropertyFacts = t.ownPropertyFacts) :
    nodesOfStatements s = nodesOfStatements t := by
  rw [nodesOfStatements, nodesOfStatements, hspace, hclasses, hproperties]

/-- What a relationship takes up from subjects are properties of their own. -/
private theorem edge_eq_of_ownPropertyFacts_eq (options : SchemaOptions)
    (h : s.ownPropertyFacts = t.ownPropertyFacts) (f : RelationFact) (id : String) :
    f.edge options s id = f.edge options t id := by
  have hsame : f.sameSubjectEntries s = f.sameSubjectEntries t := by
    rw [RelationFact.sameSubjectEntries, RelationFact.sameSubjectEntries, h]
  have hcompound : f.compoundEntries s = f.compoundEntries t := by
    rw [RelationFact.compoundEntries, RelationFact.compoundEntries, h]
  have hconstraints : f.constraints options s = f.constraints options t := by
    rw [RelationFact.constraints, RelationFact.constraints, RelationFact.takenEntries,
      RelationFact.takenEntries, hsame, hcompound]
  exact edge_congr rfl rfl rfl rfl hconstraints id

/-- **Schemas** are made of the facts that are no copies. -/
theorem ofStatements_eq_of_shapeFacts_eq (options : SchemaOptions) (hspace : s.space = t.space)
    (h : s.shapeFacts = t.shapeFacts) : ofStatements options s = ofStatements options t := by
  obtain ⟨hclasses, hproperties, hrelations⟩ := Statements.facts_eq_of_shapeFacts_eq h
  have hstep : addRelation options s = addRelation options t := by
    funext S f
    rw [addRelation, addRelation, edge_eq_of_ownPropertyFacts_eq options hproperties]
  rw [ofStatements, ofStatements, hrelations, hstep,
    nodesOfStatements_congr hspace hclasses hproperties]

end Schema

/-! ## Asking for copies -/

/-- The relationships that the shapes of a graph state, in the order in which they are met. -/
def NodeShape.relations (g : Graph) : List RelationFact :=
  (NodeShape.allFacts g).filterMap Fact.relation?

/-- Of the relationships with one identifier it does not matter which one stays: they have the same
subject, the same predicate and the same properties. -/
def RelationsAgree (g : Graph) : Prop :=
  ∀ a ∈ NodeShape.relations g, ∀ b ∈ NodeShape.relations g,
    (Fact.ofRelation a).id = (Fact.ofRelation b).id →
      a.subject = b.subject ∧ a.predicate = b.predicate ∧ ∀ p ∈ a.properties, p ∈ b.properties

instance (g : Graph) : Decidable (RelationsAgree g) :=
  inferInstanceAs (Decidable (∀ a ∈ NodeShape.relations g, ∀ b ∈ NodeShape.relations g,
    (Fact.ofRelation a).id = (Fact.ofRelation b).id →
      a.subject = b.subject ∧ a.predicate = b.predicate ∧ ∀ p ∈ a.properties, p ∈ b.properties))

/-- The relationships that are copied from are those among the facts of all shapes. -/
theorem NodeShape.mem_relations_iff {g : Graph} {r : RelationFact} :
    r ∈ NodeShape.relations g ↔ .ofRelation r ∈ NodeShape.allFacts g := by
  simp only [relations, List.mem_filterMap, Fact.relation?_eq_some_iff, exists_eq_right]

namespace Statements

variable {options : ReadingOptions} {g : Graph}

/-- A fact with a known identifier changes nothing, and any other one goes to the end. -/
private theorem insertNew_eq_or (s : Statements) (f : Fact) :
    s.insertNew f = s ∨ (s.insertNew f).toList = s.toList ++ [f] := by
  by_cases h : f.id ∈ s.facts.keys
  · exact .inl (if_pos (Registry.contains_iff.2 h))
  · refine .inr ?_
    rw [toList_insertNew, if_neg h]

/-- Under the identifier of a copy that is asked for, there is a property in the end. -/
private theorem exists_property_of_mem_copies {f : Fact} (h : f ∈ copies options g) :
    ∃ q, (ofShapes options g).find? f.id = some (.ofProperty q) := by
  have hmem : ∃ f' ∈ (ofShapes options g).toList, f'.id = f.id := by
    rw [toList_ofShapes]
    rcases id_mem_of_mem (own options g).facts.keys h with hknown | ⟨f', hf', hid⟩
    · obtain ⟨f', hf', hid⟩ := List.mem_map.1 hknown
      exact ⟨f', List.mem_append_left _ hf', hid⟩
    · exact ⟨f', List.mem_append_right _ hf', hid⟩
  obtain ⟨f', hf', hid⟩ := hmem
  obtain ⟨-, r, -, p, -, rfl⟩ := mem_copies_iff.1 h
  obtain ⟨q, hq⟩ := Option.isSome_iff_exists.1 (Fact.kind_eq_of_id_eq hid).2.1
  obtain rfl := Fact.property?_eq_some_iff.1 hq
  refine ⟨q, ?_⟩
  rw [← hid]
  exact Registry.find?_of_mem hf'

/-- **Asking for copies.** Read a graph with copies and without them, in the same order.

* The statements with copies are those without, and behind them further facts that are all copies.
* They arise by adding copies one after the other, and each of these leaves everything as it was or
  goes to the end: none takes the place of another fact.
* Every property of a relationship has a fact under its compound name, a copy or a property of the
  subject itself.
* The schemas are the same, and so are the shapes. (The blank nodes of shapes are numbered; shapes
  that differ in the names of blank nodes only get the same numbers.) -/
theorem ofShapes_with_copies (space : Option String) (g : Graph) :
    let s := ofShapes ⟨space, true⟩ g
    let t := ofShapes ⟨space, false⟩ g
    (∃ added, s.toList = t.toList ++ added ∧ ∀ f ∈ added, f.isCopy = true) ∧
      (s = (copies ⟨space, true⟩ g).foldl insertNew t ∧
        ∀ before f after, copies ⟨space, true⟩ g = before ++ f :: after →
          let u := before.foldl insertNew t
          u.insertNew f = u ∨ (u.insertNew f).toList = u.toList ++ [f]) ∧
      (∀ e ∈ s.relationFacts, ∀ p ∈ e.properties, ∃ q,
        s.find? ("property:" ++ e.subject ++ ":" ++ (e.name ++ "_" ++ p.name)) =
          some (.ofProperty q)) ∧
      (∀ o : SchemaOptions, Schema.ofStatements o s = Schema.ofStatements o t) ∧
      s.toShapes = t.toShapes := by
  intro s t
  have hspace : s.space = t.space := by
    rw [space_ofShapes, space_ofShapes]
    rfl
  have hfacts : s.shapeFacts = t.shapeFacts := by
    rw [shapeFacts_ofShapes, shapeFacts_ofShapes]
    rfl
  refine ⟨⟨_, toList_ofShapes ⟨space, true⟩ g, ?_⟩, ⟨rfl, ?_⟩, ?_, ?_, ?_⟩
  · intro f hf
    exact isCopy_of_mem_copies (of_mem_newFacts hf).1
  · intro before f after _
    exact insertNew_eq_or _ f
  · intro e he p hp
    have hmet := mem_allFacts_of_mem_shapeFacts
      (mem_shapeFacts_iff.2 ⟨mem_relationFacts_iff.1 he, rfl⟩)
    exact exists_property_of_mem_copies (mem_copies_iff.2 ⟨rfl, e, hmet, p, hp, rfl⟩)
  · exact fun o => Schema.ofStatements_eq_of_shapeFacts_eq o hspace hfacts
  · exact toShapes_eq_of_shapeFacts_eq hspace hfacts

/-! ## Copies and their relationships -/

/-- A fact that is a copy is one of the copies that are asked for. -/
theorem mem_copies_of_isCopy {f : Fact} (hf : f ∈ (ofShapes options g).toList)
    (hcopy : f.isCopy = true) : f ∈ copies options g := by
  rw [toList_ofShapes] at hf
  rcases List.mem_append.1 hf with hf | hf
  · have hown := isCopy_of_mem_allFacts (mem_allFacts_of_mem_own hf)
    rw [hown] at hcopy
    cases hcopy
  · exact (of_mem_newFacts hf).1

/-- Of the relationships that are stated under one identifier, one stays. -/
private theorem exists_mem_relationFacts_of_mem (options : ReadingOptions) {m : RelationFact}
    (hm : m ∈ NodeShape.relations g) :
    ∃ e ∈ (ofShapes options g).relationFacts, e ∈ NodeShape.relations g ∧
      (Fact.ofRelation m).id = (Fact.ofRelation e).id := by
  obtain ⟨f, hf, hid⟩ := exists_mem_own_of_mem options (NodeShape.mem_relations_iff.1 hm)
  obtain ⟨e, he⟩ := Option.isSome_iff_exists.1 (Fact.kind_eq_of_id_eq hid).2.2
  obtain rfl := Fact.relation?_eq_some_iff.1 he
  refine ⟨e, mem_relationFacts_iff.2 ?_, ?_, hid.symm⟩
  · rw [toList_ofShapes]
    exact List.mem_append_left _ hf
  · exact NodeShape.mem_relations_iff.2 (mem_allFacts_of_mem_own hf)

/-- **Copies and their relationships.** If of the relationships with one identifier it does not
matter which one stays, every copy is one of a property of a relationship that is there.

**Proof sketch.** A copy belongs to a relationship that some property shape states. One with its
identifier stays, and it has the same subject, the same predicate and the same properties. -/
theorem exists_relation_of_copy (options : ReadingOptions) (g : Graph) (hagree : RelationsAgree g)
    {f : PropertyFact} {r : Iri} (hf : f ∈ (ofShapes options g).propertyFacts)
    (hr : f.copyOf = some r) :
    ∃ e ∈ (ofShapes options g).relationFacts,
      e.subject = f.subject ∧ e.predicate = r ∧ f.property ∈ e.properties := by
  have hcopy : (Fact.ofProperty f).isCopy = true := by
    show f.copyOf.isSome = true
    rw [hr]
    rfl
  obtain ⟨-, m, hm, p, hp, hfm⟩ := mem_copies_iff.1
    (mem_copies_of_isCopy (mem_propertyFacts_iff.1 hf) hcopy)
  obtain rfl := Fact.ofProperty.inj hfm
  obtain rfl : m.predicate = r := Option.some.inj hr
  have hmet := NodeShape.mem_relations_iff.2 hm
  obtain ⟨e, he, hstated, hid⟩ := exists_mem_relationFacts_of_mem options hmet
  obtain ⟨hsubject, hpredicate, hproperties⟩ := hagree m hmet e hstated hid
  exact ⟨e, he, hsubject.symm, hpredicate.symm, hproperties p hp⟩

/-- A name in the example namespace. -/
def exampleIri (name : String) : Iri := ⟨"http://example.org/" ++ name⟩

/-- People who know people, which two property shapes say. The first gives knowing some properties,
the second gives it others. -/
def knownTwice (first second : List String) : Graph :=
  let shape : Subject := .iri (exampleIri "PersonShape")
  let earlier : Subject := .iri (exampleIri "knowsShape")
  let later : Subject := .blank (.named "knows")
  let said (place : Subject) (properties : List String) : List Triple :=
    [⟨shape, Vocabulary.property, place.toTerm⟩,
      ⟨place, Vocabulary.path, .iri (exampleIri "knows")⟩,
      ⟨place, Vocabulary.class, .iri (exampleIri "Person")⟩] ++
    properties.flatMap fun name =>
      let nested : Subject := .iri (exampleIri (name ++ "Shape"))
      [⟨place, Vocabulary.property, nested.toTerm⟩,
        ⟨nested, Vocabulary.path, .iri (exampleIri name)⟩,
        ⟨nested, Vocabulary.datatype, .iri (xsd "string")⟩]
  Graph.ofList
    ([⟨shape, Vocabulary.type, .iri Vocabulary.nodeShape⟩,
      ⟨shape, Vocabulary.targetClass, .iri (exampleIri "Person")⟩] ++
      said earlier first ++ said later second)

/-- If both shapes give knowing the same properties, the copies have their relationship. -/
theorem exists_relation_of_copy_knownTwice :
    let s := ofShapes {} (knownTwice ["since", "closeness"] ["closeness", "since"])
    let f : PropertyFact :=
      ⟨"Person", ⟨exampleIri "since", xsd "string", {}⟩, some (exampleIri "knows")⟩
    RelationsAgree (knownTwice ["since", "closeness"] ["closeness", "since"]) ∧
      f ∈ s.propertyFacts ∧ f.copyOf = some (exampleIri "knows") ∧
      ∃ e ∈ s.relationFacts,
        e.subject = f.subject ∧ e.predicate = exampleIri "knows" ∧ f.property ∈ e.properties := by
  intro s f
  have hagree : RelationsAgree (knownTwice ["since", "closeness"] ["closeness", "since"]) := by
    decide +kernel
  have hf : f ∈ s.propertyFacts := by decide +kernel
  exact ⟨hagree, hf, rfl, exists_relation_of_copy {} _ hagree hf rfl⟩

/-- If the second shape gives knowing another property, the copy of the first one stays behind
without its relationship. -/
theorem exists_copy_without_relation :
    ∃ f ∈ (ofShapes {} (knownTwice ["since"] ["closeness"])).propertyFacts,
      f.copyOf = some (exampleIri "knows") ∧
        ¬ ∃ e ∈ (ofShapes {} (knownTwice ["since"] ["closeness"])).relationFacts,
          e.subject = f.subject ∧ e.predicate = exampleIri "knows" ∧ f.property ∈ e.properties := by
  refine ⟨⟨"Person", ⟨exampleIri "since", xsd "string", {}⟩, some (exampleIri "knows")⟩, ?_⟩
  decide +kernel

end Statements

end ShapeSchema
