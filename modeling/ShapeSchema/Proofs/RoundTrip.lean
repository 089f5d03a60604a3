import ShapeSchema.Proofs.Shapes

/-!
# Reading back what was written

The graph of closed statements states exactly the facts that it was made of, so these are what is
read from it, in every order. The parts of a fact are found one after the other: the bounds of a
property shape, the properties inside the shape of a relationship, the property shapes of a node
shape.

## Main results

* `ShapeSchema.Statements.statesCardinality_node`, `ShapeSchema.Statements.statesProperty_iff`,
  `ShapeSchema.Statements.statesProperties_node` — the parts that the graph states.
* `ShapeSchema.Statements.states_toShapes_iff` — the facts that it states.
* `ShapeSchema.Statements.content_ofShapes_perm` — the facts that are read back.
-/

namespace ShapeSchema

open Rdf (BlankNode Graph SingleValued Subject Term Triple)

namespace Statements

variable {s : Statements}

/-! ## Property shapes by their owners -/

/-- A property shape of a node shape is that of a property or that of a relationship. -/
private theorem exists_fact_of_owner_iri {m : MadeShape} {shape : Iri} (hm : m ∈ s.madeShapes)
    (howner : m.owner = .iri shape) :
    ∃ p ∈ s.placed, p.shape = shape ∧
      ((∃ f, p.fact = .ofProperty f ∧ m = f.property.madeShape (.iri shape) p.number) ∨
        ∃ f, p.fact = .ofRelation f ∧ m = f.madeShape (.iri shape) p.number) := by
  obtain ⟨⟨shape', number, fact⟩, hp, hm⟩ := List.mem_flatMap.1 hm
  cases fact with
  | ofClass c => simp [PlacedFact.madeShapes, Fact.madeShapes] at hm
  | ofProperty f =>
    obtain rfl := List.mem_singleton.1 hm
    obtain rfl := Subject.iri.inj howner
    exact ⟨_, hp, rfl, .inl ⟨f, rfl, rfl⟩⟩
  | ofRelation f =>
    rcases List.mem_cons.1 hm with rfl | hm
    · obtain rfl := Subject.iri.inj howner
      exact ⟨_, hp, rfl, .inr ⟨f, rfl, rfl⟩⟩
    · -- those inside the shape of a relationship belong to a blank node
      obtain ⟨e, -, rfl⟩ := List.mem_map.1 hm
      cases howner

/-- A property shape of a blank node is that of a property of a relationship. -/
private theorem exists_relation_of_owner_blank {m : MadeShape} {number : Nat}
    (hm : m ∈ s.madeShapes) (howner : m.owner = .blank (.fresh number)) :
    ∃ p ∈ s.placed, ∃ f, p.fact = .ofRelation f ∧ p.number = number ∧
      m ∈ madeShapesOf m.owner (number + 1) f.properties := by
  obtain ⟨⟨shape, number', fact⟩, hp, hm⟩ := List.mem_flatMap.1 hm
  cases fact with
  | ofClass c => simp [PlacedFact.madeShapes, Fact.madeShapes] at hm
  | ofProperty f =>
    obtain rfl := List.mem_singleton.1 hm
    cases howner
  | ofRelation f =>
    rcases List.mem_cons.1 hm with rfl | hm
    · cases howner
    · have hnumber : number' = number := by
        obtain ⟨e, -, rfl⟩ := List.mem_map.1 hm
        exact BlankNode.fresh.inj (Subject.blank.inj howner)
      rw [← hnumber] at howner ⊢
      exact ⟨_, hp, f, rfl, rfl, howner ▸ hm⟩

/-! ## The parts of facts -/

/-- **Bounds.** A property shape states the bounds that it was made with. -/
theorem statesCardinality_node {m : MadeShape} (hm : m ∈ s.madeShapes) :
    StatesCardinality s.toShapes.toSet m.node m.cardinality := by
  constructor
  · by_cases hmin : 0 < m.cardinality.min
    · refine ⟨some m.cardinality.min, ?_, rfl⟩
      rw [← countOf?_countLiteral]
      exact .given (minCount_mem_toShapes_iff.2 ⟨m, hm, hmin, rfl, rfl⟩)
    · refine ⟨none, .missing ?_, by simpa using hmin⟩
      intro value hvalue
      obtain ⟨n, hn, hpos, hnode, -⟩ := minCount_mem_toShapes_iff.1 hvalue
      rw [← eq_of_node_eq hm hn hnode] at hpos
      exact hmin hpos
  · cases hmax : m.cardinality.max with
    | some max =>
      rw [← countOf?_countLiteral]
      exact .given (maxCount_mem_toShapes_iff.2 ⟨m, hm, max, hmax, rfl, rfl⟩)
    | none =>
      refine .missing ?_
      intro value hvalue
      obtain ⟨n, hn, max, hsome, hnode, -⟩ := maxCount_mem_toShapes_iff.1 hvalue
      rw [← eq_of_node_eq hm hn hnode, hmax] at hsome
      cases hsome

/-- A property shape states no other bounds. -/
private theorem cardinality_eq_of_states (h : Unambiguous s.toShapes.toSet) {m : MadeShape}
    (hm : m ∈ s.madeShapes) {c : Cardinality} (hc : StatesCardinality s.toShapes.toSet m.node c) :
    c = m.cardinality := by
  rw [← (statesCardinality_iff h).1 hc, (statesCardinality_iff h).1 (statesCardinality_node hm)]

/-- **Properties.** The shape of a property states it, and no other shape states a property. -/
theorem statesProperty_iff (h : Unambiguous s.toShapes.toSet) {shape : Subject} {p : Property} :
    StatesProperty s.toShapes.toSet shape p ↔
      ∃ owner number, p.madeShape owner number ∈ s.madeShapes ∧
        shape = .blank (.fresh number) := by
  constructor
  · rintro ⟨hpath, hdatatype, hc⟩
    obtain ⟨m, hm, rfl, hvalue⟩ := path_mem_toShapes_iff.1 hpath
    obtain ⟨n, hn, iri, hrange, hnode, hdatatype⟩ := datatype_mem_toShapes_iff.1 hdatatype
    rw [← eq_of_node_eq hm hn hnode, ← Term.iri.inj hdatatype] at hrange
    have hmade : p.madeShape m.owner m.number = m := by
      rw [Property.madeShape, Term.iri.inj hvalue, ← hrange, cardinality_eq_of_states h hm hc]
    exact ⟨m.owner, m.number, hmade.symm ▸ hm, rfl⟩
  · rintro ⟨owner, number, hm, rfl⟩
    exact ⟨path_mem_toShapes_iff.2 ⟨_, hm, rfl, rfl⟩,
      datatype_mem_toShapes_iff.2 ⟨_, hm, _, rfl, rfl, rfl⟩, statesCardinality_node hm⟩

/-- **Properties of relationships.** The shape of a relationship states its properties. -/
theorem statesProperties_node (h : Unambiguous s.toShapes.toSet) {p : PlacedFact}
    (hp : p ∈ s.placed) {f : RelationFact} (hf : p.fact = .ofRelation f) :
    StatesProperties s.toShapes.toSet (.blank (.fresh p.number)) f.properties := by
  refine ⟨(f.properties.zipIdx (p.number + 1)).map fun e => (.blank (.fresh e.2), e.1), ?_, ?_, ?_⟩
  · refine List.Nodup.of_map (fun e => e.1) ?_
    rw [List.map_map]
    have hnumbers := (List.nodup_range' (s := p.number + 1) (n := f.properties.length)).map
      (f := fun n => Subject.blank (.fresh n)) fun a b hab =>
        BlankNode.fresh.inj (Subject.blank.inj hab)
    rw [← List.zipIdx_map_snd, List.map_map] at hnumbers
    exact hnumbers
  · intro n q
    rw [statesProperty_iff h]
    constructor
    · intro hn
      obtain ⟨⟨q, i⟩, he, heq⟩ := List.mem_map.1 hn
      obtain ⟨rfl, rfl⟩ := Prod.mk.inj heq
      have hmade : q.madeShape (.blank (.fresh p.number)) i ∈ s.madeShapes := by
        refine List.mem_flatMap.2 ⟨p, hp, ?_⟩
        rw [PlacedFact.madeShapes, hf]
        exact List.mem_cons_of_mem _ (List.mem_map.2 ⟨_, he, rfl⟩)
      exact ⟨property_mem_toShapes_iff.2 ⟨_, hmade, rfl, rfl⟩, _, i, hmade, rfl⟩
    · rintro ⟨hproperty, owner, i, hmade, rfl⟩
      obtain ⟨m, hm, howner, hnode⟩ := property_mem_toShapes_iff.1 hproperty
      obtain rfl : m = q.madeShape owner i :=
        eq_of_node_eq hm hmade (Rdf.Subject.toTerm_injective hnode.symm)
      obtain ⟨p', hp', f', hf', hnumber, hmem⟩ := exists_relation_of_owner_blank hm howner.symm
      -- the shape of the relationship has the same number in both places
      have hhead : ∀ {p : PlacedFact} {f : RelationFact}, p.fact = .ofRelation f →
          f.madeShape (.iri p.shape) p.number ∈ p.madeShapes := by
        intro p f hf
        rw [PlacedFact.madeShapes, hf]
        exact List.mem_cons_self
      have hpp : p' = p := placed_eq_of_number_eq hp' hp (hhead hf') (hhead hf) hnumber
      rw [hpp, hf] at hf'
      obtain rfl := Fact.ofRelation.inj hf'
      obtain ⟨⟨q', i'⟩, he, heq⟩ := List.mem_map.1 hmem
      obtain ⟨rfl, rfl⟩ := Property.eq_of_madeShape_eq heq
      exact List.mem_map.2 ⟨_, he, rfl⟩
  · rw [List.map_map]
    have hfst := List.zipIdx_map_fst (p.number + 1) f.properties
    exact List.Perm.of_eq hfst.symm

/-! ## Facts -/

section Facts

variable (hc : s.Closed) (hshapes : s.Shapely)

include hc hshapes

/-- A fact in the place of a class is about the subject of this class. -/
private theorem subject_eq_localName {p : PlacedFact} (hp : p ∈ s.placed) {c : ClassFact}
    (h : p.shape = shapeOf c) : p.fact.subject = c.object.localName := by
  obtain ⟨d, hd, hsubject, hshape⟩ := exists_class_of_mem_placed hc hshapes hp
  rw [← hsubject, hc.classes d hd, object_eq_of_shapeOf_eq (hshape.symm.trans h)]

/-- The property shapes of a node that describes a class state facts about the class. -/
private theorem exists_fact_of_describes {node shape : Subject} {target : Iri}
    (hnode : Describes s.toShapes.toSet node target)
    (hshape : ⟨node, Vocabulary.property, shape.toTerm⟩ ∈ s.toShapes.toSet) :
    ∃ p ∈ s.placed, p.fact.subject = target.localName ∧ shape = .blank (.fresh p.number) ∧
      ((∃ f, p.fact = .ofProperty f ∧ f.property.madeShape node p.number ∈ s.madeShapes) ∨
        ∃ f, p.fact = .ofRelation f ∧ f.madeShape node p.number ∈ s.madeShapes) := by
  obtain ⟨c, -, rfl, rfl⟩ := (describes_toShapes_iff hc hshapes).1 hnode
  obtain ⟨m, hm, howner, hvalue⟩ := property_mem_toShapes_iff.1 hshape
  obtain ⟨p, hp, hpshape, hfact⟩ := exists_fact_of_owner_iri hm howner.symm
  have hsubject := subject_eq_localName hc hshapes hp hpshape
  have hnode := Rdf.Subject.toTerm_injective hvalue
  rcases hfact with ⟨f, hf, rfl⟩ | ⟨f, hf, rfl⟩
  · exact ⟨p, hp, hsubject, hnode, .inl ⟨f, hf, hm⟩⟩
  · exact ⟨p, hp, hsubject, hnode, .inr ⟨f, hf, hm⟩⟩

/-- The properties that the graph states are those of the statements. -/
private theorem mem_shapeFacts_of_statesProperty {node shape : Subject} {target : Iri}
    {q : Property} (hnode : Describes s.toShapes.toSet node target)
    (hshape : ⟨node, Vocabulary.property, shape.toTerm⟩ ∈ s.toShapes.toSet)
    (hclass : ∀ value, ⟨shape, Vocabulary.class, value⟩ ∉ s.toShapes.toSet)
    (hq : StatesProperty s.toShapes.toSet shape q) :
    .ofProperty ⟨target.localName, q, none⟩ ∈ s.shapeFacts := by
  obtain ⟨p, hp, hsubject, rfl, hfact⟩ := exists_fact_of_describes hc hshapes hnode hshape
  obtain ⟨hmem, -⟩ := of_mem_placedFrom hp
  rcases hfact with ⟨f, hf, hm⟩ | ⟨f, hf, hm⟩
  · have hunambiguous := unambiguous_toShapes hc hshapes
    obtain ⟨owner, number, hmade, hnumber⟩ := (statesProperty_iff hunambiguous).1 hq
    have hq : f.property = q := by
      refine (Property.eq_of_madeShape_eq (eq_of_number_eq hm hmade ?_)).1
      exact BlankNode.fresh.inj (Subject.blank.inj hnumber)
    obtain ⟨subject, property, copyOf⟩ := f
    have hown : copyOf = none := by
      have hcopy := (mem_shapeFacts_iff.1 hmem).2
      simpa [hf, Fact.isCopy, PropertyFact.isCopy] using hcopy
    rw [hf] at hsubject hmem
    rw [← hsubject, ← hq, ← hown]
    exact hmem
  · exact absurd (class_mem_toShapes_iff.2 ⟨_, hm, _, rfl, rfl, rfl⟩) (hclass _)

/-- The relationships that the graph states are those of the statements, up to the order of their
properties. -/
private theorem exists_relation_of_statesProperties {node shape : Subject} {target path range : Iri}
    {c : Cardinality} {properties : List Property}
    (hnode : Describes s.toShapes.toSet node target)
    (hshape : ⟨node, Vocabulary.property, shape.toTerm⟩ ∈ s.toShapes.toSet)
    (hpath : ⟨shape, Vocabulary.path, .iri path⟩ ∈ s.toShapes.toSet)
    (hclass : ⟨shape, Vocabulary.class, .iri range⟩ ∈ s.toShapes.toSet)
    (hcard : StatesCardinality s.toShapes.toSet shape c)
    (hprops : StatesProperties s.toShapes.toSet shape properties) :
    ∃ f ∈ s.relationFacts, f.properties.Perm properties ∧
      { f with properties } =
        RelationFact.mk target.localName path range.localName range c properties := by
  have hunambiguous := unambiguous_toShapes hc hshapes
  obtain ⟨p, hp, hsubject, rfl, hfact⟩ := exists_fact_of_describes hc hshapes hnode hshape
  obtain ⟨hmem, -⟩ := of_mem_placedFrom hp
  obtain ⟨m, hm, iri, hrange, hnode, hiri⟩ := class_mem_toShapes_iff.1 hclass
  obtain ⟨n, hn, hnode', hvalue⟩ := path_mem_toShapes_iff.1 hpath
  rcases hfact with ⟨f, hf, hmade⟩ | ⟨f, hf, hmade⟩
  · rw [← eq_of_node_eq hmade hm hnode] at hrange
    cases hrange
  · rw [← eq_of_node_eq hmade hm hnode] at hrange
    rw [← eq_of_node_eq hmade hn hnode'] at hvalue
    have hfmem : f ∈ s.relationFacts :=
      mem_relationFacts_iff.2 (hf ▸ (mem_shapeFacts_iff.1 hmem).1)
    have hnested := statesProperties_node hunambiguous hp hf
    have hperm : f.properties.Perm properties :=
      ((statesProperties_iff hunambiguous).1 hnested).trans
        ((statesProperties_iff hunambiguous).1 hprops).symm
    have hsubject : f.subject = target.localName := by
      rw [hf] at hsubject
      exact hsubject
    have hpredicate : f.predicate = path := (Term.iri.inj hvalue).symm
    have htarget : f.target = range :=
      (ShapeRange.ofClass.inj hrange).trans (Term.iri.inj hiri).symm
    have hobject : f.object = range.localName := by rw [hc.targets f hfmem, htarget]
    have hcardinality : f.cardinality = c :=
      (cardinality_eq_of_states hunambiguous hmade hcard).symm
    refine ⟨f, hfmem, hperm, ?_⟩
    rw [hsubject, hpredicate, htarget, hobject, hcardinality]

/-- What the graph states is what it was made of. -/
private theorem exists_of_states {f : Fact} (hf : States s.toShapes.toSet f) :
    ∃ f' ∈ s.shapeFacts, f'.content = f.content := by
  cases hf with
  | ofClass hnode =>
    obtain ⟨c, hcmem, -, rfl⟩ := (describes_toShapes_iff hc hshapes).1 hnode
    rw [← hc.classes c hcmem]
    exact ⟨_, mem_shapeFacts_iff.2 ⟨mem_classFacts_iff.1 hcmem, rfl⟩, rfl⟩
  | ofProperty hnode hshape hclass hq =>
    exact ⟨_, mem_shapeFacts_of_statesProperty hc hshapes hnode hshape hclass hq, rfl⟩
  | ofRelation hnode hshape hpath hclass hcard hprops =>
    obtain ⟨f, hf, hperm, heq⟩ :=
      exists_relation_of_statesProperties hc hshapes hnode hshape hpath hclass hcard hprops
    refine ⟨.ofRelation f, mem_shapeFacts_iff.2 ⟨mem_relationFacts_iff.1 hf, rfl⟩, ?_⟩
    rw [← heq]
    simp only [Fact.content, RelationFact.content, Multiset.coe_eq_coe.2 hperm]

/-- What the graph was made of is stated. -/
private theorem states_of_mem_shapeFacts {f : Fact} (hf : f ∈ s.shapeFacts) :
    States s.toShapes.toSet f := by
  obtain ⟨p, hp, rfl⟩ := exists_placed hc hshapes hf
  obtain ⟨c, hcmem, hsubject, hshape⟩ := exists_class_of_mem_placed hc hshapes hp
  obtain ⟨hmem, hcopy⟩ := mem_shapeFacts_iff.1 hf
  have hnode : Describes s.toShapes.toSet (.iri p.shape) c.object :=
    (describes_toShapes_iff hc hshapes).2 ⟨c, hcmem, by rw [hshape], rfl⟩
  have hclass := hc.classes c hcmem
  have hmade : ∀ m ∈ p.madeShapes, m ∈ s.madeShapes := fun m hm =>
    List.mem_flatMap.2 ⟨p, hp, hm⟩
  rw [PlacedFact.madeShapes] at hmade
  cases hfact : p.fact with
  | ofClass d =>
    rw [hfact] at hmem hsubject
    have hdc : d = c := eq_of_subject_eq (mem_classFacts_iff.2 hmem) hcmem hsubject.symm
    have hstated := States.ofClass hnode
    rw [← hclass] at hstated
    exact hdc ▸ hstated
  | ofProperty f =>
    rw [hfact] at hmade hsubject hcopy
    have hm := hmade (f.property.madeShape (.iri p.shape) p.number) List.mem_cons_self
    have hnoclass : ∀ value, ⟨.blank (.fresh p.number), Vocabulary.class, value⟩ ∉
        s.toShapes.toSet := by
      intro value hvalue
      obtain ⟨n, hn, iri, hrange, hnode, -⟩ := class_mem_toShapes_iff.1 hvalue
      rw [← eq_of_node_eq hm hn hnode] at hrange
      cases hrange
    have hstated := States.ofProperty hnode (property_mem_toShapes_iff.2 ⟨_, hm, rfl, rfl⟩) hnoclass
      ⟨path_mem_toShapes_iff.2 ⟨_, hm, rfl, rfl⟩,
        datatype_mem_toShapes_iff.2 ⟨_, hm, _, rfl, rfl, rfl⟩, statesCardinality_node hm⟩
    have hown : f.copyOf = none := by
      simpa [Fact.isCopy, PropertyFact.isCopy] using hcopy
    obtain ⟨subject, property, copyOf⟩ := f
    rw [← hclass, hsubject, ← hown] at hstated
    exact hstated
  | ofRelation f =>
    rw [hfact] at hmade hsubject hmem
    have hm := hmade (f.madeShape (.iri p.shape) p.number) List.mem_cons_self
    have hstated := States.ofRelation hnode (property_mem_toShapes_iff.2 ⟨_, hm, rfl, rfl⟩)
      (path_mem_toShapes_iff.2 ⟨_, hm, rfl, rfl⟩)
      (class_mem_toShapes_iff.2 ⟨_, hm, _, rfl, rfl, rfl⟩) (statesCardinality_node hm)
      (statesProperties_node (unambiguous_toShapes hc hshapes) hp hfact)
    rw [← hclass, hsubject, ← hc.targets f (mem_relationFacts_iff.2 hmem)] at hstated
    exact hstated

/-- **Facts.** The graph of closed statements states what they say, up to the order of the
properties of relationships. -/
theorem states_toShapes_iff {f : Fact} :
    States s.toShapes.toSet f ↔ ∃ f' ∈ s.shapeFacts, f'.content = f.content := by
  constructor
  · exact exists_of_states hc hshapes
  · rintro ⟨f', hf', hcontent⟩
    exact (states_of_mem_shapeFacts hc hshapes hf').of_content_eq hcontent.symm

/-- **Round trip.** What closed statements say is read back from any graph with the triples of
their shapes. -/
theorem content_ofShapes_perm (options : ReadingOptions) {g : Graph}
    (hg : g.triples.Perm s.toShapes.triples) :
    (ofShapes options g).content.Perm s.content := by
  have hset := Graph.toSet_eq_of_perm hg
  have hunambiguous := unambiguous_toShapes hc hshapes
  rw [← hset] at hunambiguous
  have hstates : ∀ f, States g.toSet f ↔ ∃ f' ∈ s.shapeFacts, f'.content = f.content := by
    intro f
    rw [hset]
    exact states_toShapes_iff hc hshapes
  rw [List.perm_ext_iff_of_nodup (nodup_content _) s.nodup_content]
  intro c
  rw [mem_content_ofShapes_iff options hunambiguous, content, List.mem_map]
  · constructor
    · rintro ⟨f, hf, rfl⟩
      exact (hstates f).1 hf
    · rintro ⟨f, hf, rfl⟩
      exact ⟨f, (hstates f).2 ⟨f, hf, rfl⟩, rfl⟩
  · -- facts with one identifier have one content, because no fact replaced another in `s`
    intro f₁ f₂ h₁ h₂ hid
    obtain ⟨f₁', hf₁, hc₁⟩ := (hstates f₁).1 h₁
    obtain ⟨f₂', hf₂, hc₂⟩ := (hstates f₂).1 h₂
    rw [← Fact.id_eq_of_content_eq hc₁, ← Fact.id_eq_of_content_eq hc₂] at hid
    rw [← hc₁, ← hc₂, eq_of_id_eq (mem_shapeFacts_iff.1 hf₁).1 (mem_shapeFacts_iff.1 hf₂).1 hid]

end Facts

/-! ## Statements that were built by insertions -/

/-- **Reading undoes writing.** Take any statements that were built by insertions, that are closed
and whose classes have valid IRIs for their shapes. Whatever the order of the triples and whether or
not copies are asked for, the facts that are no copies come back, with the properties of each
relationship as a multiset.

**Proof sketch.** Fresh blank nodes have distinct numbers, so every lookup in the graph leads to one
property shape, and a node shape belongs to one class. The graph is thus unambiguous and states
the facts of the statements; these have distinct identifiers, so none of them takes the place of
another one when they are read. -/
theorem ofShapes_toShapes_ofList (name space : String) (facts : List Fact)
    (hc : (ofList name space facts).Closed) (hshapes : (ofList name space facts).Shapely)
    (options : ReadingOptions) (g : Graph)
    (hg : g.triples.Perm (ofList name space facts).toShapes.triples) :
    (ofShapes options g).content.Perm (ofList name space facts).content := by
  exact content_ofShapes_perm hc hshapes options hg

/-- Facts about people who know each other, since the same date in two ways. -/
def peopleFacts : List Fact :=
  let person : Iri := ⟨"http://example.org/Person"⟩
  let since : Property := ⟨⟨"http://example.org/since"⟩, xsd "date", ⟨0, some 1⟩⟩
  [.ofRelation (.toClass "Person" ⟨"http://example.org/knows"⟩ person .any [since, since]),
    .ofProperty ⟨"Person", ⟨⟨"http://example.org/name"⟩, xsd "string", ⟨1, none⟩⟩, none⟩,
    .ofProperty ⟨"Person", since, some ⟨"http://example.org/knows"⟩⟩,
    .ofClass ⟨"Person", person⟩]

/-- The facts about people come back from their shapes, listed backwards. -/
theorem ofShapes_toShapes_peopleFacts :
    (ofList "people" "http://example.org/" peopleFacts).Closed ∧
      (ofList "people" "http://example.org/" peopleFacts).Shapely ∧
      (ofShapes {}
          (ofList "people" "http://example.org/" peopleFacts).toShapes.backwards).content.Perm
        (ofList "people" "http://example.org/" peopleFacts).content := by
  have hc : (ofList "people" "http://example.org/" peopleFacts).Closed := by decide +kernel
  have hshapes : (ofList "people" "http://example.org/" peopleFacts).Shapely := by decide +kernel
  exact ⟨hc, hshapes, ofShapes_toShapes_ofList "people" "http://example.org/" peopleFacts hc hshapes
    {} _ (Graph.backwards_perm _)⟩

end Statements

end ShapeSchema
