import ShapeSchema.Proofs.Graph
import ShapeSchema.Proofs.Statements
import ShapeSchema.Statement.OfShapes

/-!
# What a set of triples states

The facts that shapes state, said of a set of triples and without any order of reading: which
classes, properties and relationships there are, and which properties of relationships are copied.
`ShapeSchema.Statements.ofShapes` is measured against this description.

## Main definitions

* `ShapeSchema.StatesCardinality`, `ShapeSchema.StatesProperty`, `ShapeSchema.StatesProperties` —
  what a property shape states.
* `ShapeSchema.States` — the facts that are no copies.
* `ShapeSchema.Stated` — the facts that are to be read, copies included.
* `ShapeSchema.Unambiguous` — triples in which no order can make a difference.

## Main results

* `ShapeSchema.statesCardinality_iff`, `ShapeSchema.nestedOf_eq_ok_iff`,
  `ShapeSchema.statesProperties_iff`, `ShapeSchema.NodeShape.mem_ofGraph_iff` — the parts of an
  unambiguous graph are read as described.
* `ShapeSchema.states_iff` — so are its facts.
-/

namespace ShapeSchema

open Rdf (Graph Subject SingleValued Term Triple)

/-! ## The description -/

section Description

variable (triples : Set Triple)

/-- The count that is given for a bound of a shape: the count of its value, or none. -/
inductive StatesCount (shape : Subject) (bound : Iri) : Option Count → Prop
  /-- There is a value, which may be no count. -/
  | given {value : Term} (h : ⟨shape, bound, value⟩ ∈ triples) :
      StatesCount shape bound (countOf? value)
  /-- There is no value. -/
  | missing (h : ∀ value, ⟨shape, bound, value⟩ ∉ triples) : StatesCount shape bound none

/-- The cardinality that a shape states. Without a count, the lower bound is zero and there is no
upper bound. -/
structure StatesCardinality (shape : Subject) (c : Cardinality) : Prop where
  /-- The lower bound. -/
  min : ∃ n, StatesCount triples shape Vocabulary.minCount n ∧ c.min = n.getD 0
  /-- The upper bound. -/
  max : StatesCount triples shape Vocabulary.maxCount c.max

/-- The property that a shape states: it has an IRI as its path and one as its datatype. -/
structure StatesProperty (shape : Subject) (p : Property) : Prop where
  /-- The path. -/
  path : ⟨shape, Vocabulary.path, .iri p.predicate⟩ ∈ triples
  /-- The datatype. -/
  datatype : ⟨shape, Vocabulary.datatype, .iri p.datatype⟩ ∈ triples
  /-- The bounds. -/
  cardinality : StatesCardinality triples shape p.cardinality

/-- The properties of a relationship: each shape inside its shape that states one contributes it,
and their order is free. -/
def StatesProperties (shape : Subject) (properties : List Property) : Prop :=
  ∃ nested : List (Subject × Property), nested.Nodup ∧
    (∀ n p, (n, p) ∈ nested ↔
      ⟨shape, Vocabulary.property, n.toTerm⟩ ∈ triples ∧ StatesProperty triples n p) ∧
    properties.Perm (nested.map Prod.snd)

/-- A node shape with the IRI of a target class. -/
structure Describes (node : Subject) (target : Iri) : Prop where
  /-- The node is called a node shape. -/
  type : ⟨node, Vocabulary.type, .iri Vocabulary.nodeShape⟩ ∈ triples
  /-- The class is its target. -/
  target : ⟨node, Vocabulary.targetClass, .iri target⟩ ∈ triples

/-- The facts that are stated, copies apart. -/
inductive States : Fact → Prop
  /-- Every node shape with a target class states the class. -/
  | ofClass {node : Subject} {target : Iri} (hnode : Describes triples node target) :
      States (.ofClass ⟨target.localName, target⟩)
  /-- A property shape without a class states a property, if it has a datatype. -/
  | ofProperty {node shape : Subject} {target : Iri} {p : Property}
      (hnode : Describes triples node target)
      (hshape : ⟨node, Vocabulary.property, shape.toTerm⟩ ∈ triples)
      (hclass : ∀ value, ⟨shape, Vocabulary.class, value⟩ ∉ triples)
      (hp : StatesProperty triples shape p) :
      States (.ofProperty ⟨target.localName, p, none⟩)
  /-- A property shape whose class is an IRI states a relationship. -/
  | ofRelation {node shape : Subject} {target path range : Iri} {c : Cardinality}
      {properties : List Property} (hnode : Describes triples node target)
      (hshape : ⟨node, Vocabulary.property, shape.toTerm⟩ ∈ triples)
      (hpath : ⟨shape, Vocabulary.path, .iri path⟩ ∈ triples)
      (hclass : ⟨shape, Vocabulary.class, .iri range⟩ ∈ triples)
      (hc : StatesCardinality triples shape c)
      (hproperties : StatesProperties triples shape properties) :
      States (.ofRelation ⟨target.localName, path, range.localName, range, c, properties⟩)

/-- The facts that are to be read. Where copies are asked for, every property of a relationship has
one, unless its identifier belongs to a fact that is no copy. -/
inductive Stated (options : ReadingOptions) : Fact → Prop
  /-- Facts that are no copies. -/
  | own {f : Fact} (hf : States triples f) : Stated options f
  /-- Copies. -/
  | copy {f : RelationFact} {p : Property} (hcopies : options.copies = true)
      (hf : States triples (.ofRelation f)) (hp : p ∈ f.properties)
      (hfree : ∀ g, States triples g →
        g.id ≠ Fact.id (.ofProperty ⟨f.subject, p, some f.predicate⟩)) :
      Stated options (.ofProperty ⟨f.subject, p, some f.predicate⟩)

/-- No subject has two values of a property that is read once. -/
structure Unambiguous : Prop where
  /-- One path. -/
  path : SingleValued triples Vocabulary.path
  /-- One class. -/
  range : SingleValued triples Vocabulary.class
  /-- One datatype. -/
  datatype : SingleValued triples Vocabulary.datatype
  /-- One lower bound. -/
  minCount : SingleValued triples Vocabulary.minCount
  /-- One upper bound. -/
  maxCount : SingleValued triples Vocabulary.maxCount
  /-- One target class that is an IRI. -/
  target : ∀ ⦃node : Subject⦄ ⦃a b : Iri⦄, ⟨node, Vocabulary.targetClass, .iri a⟩ ∈ triples →
    ⟨node, Vocabulary.targetClass, .iri b⟩ ∈ triples → a = b

end Description

/-- Whether a graph is unambiguous is checked on its triples. -/
theorem unambiguous_iff {g : Graph} :
    (SingleValued g.toSet Vocabulary.path ∧ SingleValued g.toSet Vocabulary.class ∧
      SingleValued g.toSet Vocabulary.datatype ∧ SingleValued g.toSet Vocabulary.minCount ∧
      SingleValued g.toSet Vocabulary.maxCount ∧
      ∀ t ∈ g.triples, ∀ u ∈ g.triples, t.predicate = Vocabulary.targetClass →
        u.predicate = Vocabulary.targetClass → t.subject = u.subject →
        t.object.iri?.isSome → u.object.iri?.isSome → t.object = u.object) ↔
    Unambiguous g.toSet := by
  rw [Graph.forall_values_iff
    (P := fun a b => a.iri?.isSome → b.iri?.isSome → a = b)]
  constructor
  · rintro ⟨hpath, hrange, hdatatype, hmin, hmax, htarget⟩
    refine ⟨hpath, hrange, hdatatype, hmin, hmax, ?_⟩
    intro node a b ha hb
    exact Term.iri.inj (htarget ha hb rfl rfl)
  · rintro ⟨hpath, hrange, hdatatype, hmin, hmax, htarget⟩
    refine ⟨hpath, hrange, hdatatype, hmin, hmax, ?_⟩
    intro node a b ha hb hia hib
    obtain ⟨i, hi⟩ := Option.isSome_iff_exists.1 hia
    obtain ⟨j, hj⟩ := Option.isSome_iff_exists.1 hib
    rw [Term.iri?_eq_some_iff] at hi hj
    subst hi hj
    rw [htarget ha hb]

instance {g : Graph} : Decidable (Unambiguous g.toSet) := decidable_of_iff _ unambiguous_iff

/-- A relationship may state its properties in any order. -/
theorem States.of_content_eq {triples : Set Triple} {f g : Fact} (hf : States triples f)
    (h : g.content = f.content) : States triples g := by
  cases hf with
  | ofClass hnode =>
    rw [← Fact.eq_of_content_eq h.symm rfl]
    exact .ofClass hnode
  | ofProperty hnode hshape hclass hp =>
    rw [← Fact.eq_of_content_eq h.symm rfl]
    exact .ofProperty hnode hshape hclass hp
  | ofRelation hnode hshape hpath hclass hc hproperties =>
    obtain ⟨⟨subject, predicate, object, target, c, properties⟩, rfl, hcontent⟩ :=
      Fact.content_ofRelation_eq h
    obtain ⟨nested, hnodup, hmem, hperm⟩ := hproperties
    have hproperties := RelationFact.perm_of_content_eq hcontent
    simp only [RelationFact.content, Prod.mk.injEq, RelationFact.mk.injEq] at hcontent
    obtain ⟨⟨rfl, rfl, rfl, rfl, rfl, -⟩, -⟩ := hcontent
    exact .ofRelation hnode hshape hpath hclass hc ⟨nested, hnodup, hmem, hproperties.trans hperm⟩

/-! ## Reading the parts -/

section Reading

variable {g : Graph} {shape : Subject}

/-- Where a bound has at most one value, it is read as it is stated. -/
theorem statesCount_iff {bound : Iri} (h : SingleValued g.toSet bound) {n : Option Count} :
    StatesCount g.toSet shape bound n ↔ (g.object? shape bound).bind countOf? = n := by
  constructor
  · rintro (hvalue | hnone)
    · rw [(Graph.object?_eq_some_iff h).2 hvalue, Option.bind_some]
    · rw [Graph.object?_eq_none_iff.2 hnone, Option.bind_none]
  · rintro rfl
    cases ho : g.object? shape bound with
    | none => exact .missing (Graph.object?_eq_none_iff.1 ho)
    | some value => exact .given (Graph.mem_of_object? ho)

/-- **Bounds** are read as they are stated. -/
theorem statesCardinality_iff (h : Unambiguous g.toSet) {c : Cardinality} :
    StatesCardinality g.toSet shape c ↔ cardinalityAt g shape = c := by
  constructor
  · rintro ⟨⟨n, hmin, hn⟩, hmax⟩
    rw [statesCount_iff h.minCount] at hmin
    rw [statesCount_iff h.maxCount] at hmax
    obtain ⟨min, max⟩ := c
    simp only [cardinalityAt, hmin, hmax, ← hn]
  · rintro rfl
    exact ⟨⟨_, (statesCount_iff h.minCount).2 rfl, rfl⟩, (statesCount_iff h.maxCount).2 rfl⟩

/-- A single value is read as an IRI if it is one. -/
theorem iriAt?_eq_some_iff {predicate : Iri} (h : SingleValued g.toSet predicate) {i : Iri} :
    iriAt? g shape predicate = some i ↔ ⟨shape, predicate, .iri i⟩ ∈ g.toSet := by
  rw [iriAt?, Option.bind_eq_some_iff]
  constructor
  · rintro ⟨o, ho, hi⟩
    rw [Term.iri?_eq_some_iff] at hi
    rw [← hi]
    exact Graph.mem_of_object? ho
  · intro hi
    exact ⟨_, (Graph.object?_eq_some_iff h).2 hi, rfl⟩

/-- **Properties of relationships** are read as they are stated. -/
theorem nestedOf_eq_ok_iff (h : Unambiguous g.toSet) {value : Term} {p : Property} :
    nestedOf g value = .ok (shape, p) ↔ value = shape.toTerm ∧ StatesProperty g.toSet shape p := by
  constructor
  · intro hok
    unfold nestedOf at hok
    split at hok
    · cases hok
    · next s hs =>
      split at hok
      · cases hok
      · next path hpath =>
        split at hok
        · cases hok
        · next datatype hdatatype =>
          cases hok
          exact ⟨Term.subject?_eq_some_iff.1 hs, (iriAt?_eq_some_iff h.path).1 hpath,
            (iriAt?_eq_some_iff h.datatype).1 hdatatype, (statesCardinality_iff h).2 rfl⟩
  · rintro ⟨rfl, hpath, hdatatype, hc⟩
    rw [← iriAt?_eq_some_iff h.path] at hpath
    rw [← iriAt?_eq_some_iff h.datatype] at hdatatype
    rw [statesCardinality_iff h] at hc
    simp only [nestedOf, Rdf.Subject.subject?_toTerm, hpath, hdatatype, hc]

/-- The shapes inside the shape of a relationship, with the properties that they state. -/
def nestedShapes (g : Graph) (shape : Subject) : List (Subject × Property) :=
  (g.objects shape Vocabulary.property).filterMap fun value => (nestedOf g value).toOption

/-- The properties inside the shape of a relationship are those of the shapes inside. -/
private theorem nestedAt_eq_map (g : Graph) (shape : Subject) :
    nestedAt g shape = (nestedShapes g shape).map Prod.snd := by
  rw [nestedAt, nestedShapes, List.map_filterMap]

/-- What does not fail gives what it gives. -/
theorem toOption_eq_some_iff {ε α : Type} {x : Except ε α} {a : α} :
    x.toOption = some a ↔ x = .ok a := by
  cases x <;> simp [Except.toOption]

/-- The shapes inside are those that are stated. -/
private theorem mem_nestedShapes_iff (h : Unambiguous g.toSet) {n : Subject} {p : Property} :
    (n, p) ∈ nestedShapes g shape ↔
      ⟨shape, Vocabulary.property, n.toTerm⟩ ∈ g.toSet ∧ StatesProperty g.toSet n p := by
  simp only [nestedShapes, List.mem_filterMap, toOption_eq_some_iff, nestedOf_eq_ok_iff h,
    Graph.mem_objects_iff]
  constructor
  · rintro ⟨_, hvalue, rfl, hp⟩
    exact ⟨hvalue, hp⟩
  · rintro ⟨hvalue, hp⟩
    exact ⟨_, hvalue, rfl, hp⟩

/-- No shape inside is met twice. -/
private theorem nodup_nestedShapes (h : Unambiguous g.toSet) : (nestedShapes g shape).Nodup := by
  refine (g.nodup_objects shape Vocabulary.property).filterMap ?_
  rintro a b ⟨n, p⟩ ha hb
  rw [Option.mem_def, toOption_eq_some_iff, nestedOf_eq_ok_iff h] at ha hb
  rw [ha.1, hb.1]

/-- The properties of a relationship are read as they are stated, in some order. -/
theorem statesProperties_iff (h : Unambiguous g.toSet) {properties : List Property} :
    StatesProperties g.toSet shape properties ↔ properties.Perm (nestedAt g shape) := by
  rw [nestedAt_eq_map]
  constructor
  · rintro ⟨nested, hnodup, hmem, hperm⟩
    have hsame : nested.Perm (nestedShapes g shape) := by
      rw [List.perm_ext_iff_of_nodup hnodup (nodup_nestedShapes h)]
      rintro ⟨n, p⟩
      rw [hmem, mem_nestedShapes_iff h]
    exact hperm.trans (hsame.map _)
  · intro hperm
    exact ⟨_, nodup_nestedShapes h, fun n p => mem_nestedShapes_iff h, hperm⟩

/-! ## Reading property shapes and node shapes -/

/-- A property shape is read as a property if it has no class, a path and a datatype. -/
private theorem PropertyShape.ofTerm_eq_property_iff (h : Unambiguous g.toSet) {value : Term}
    {p : Property} :
    PropertyShape.ofTerm g value = .ok (.property p) ↔
      ∃ shape : Subject, value = shape.toTerm ∧
        (∀ o, ⟨shape, Vocabulary.class, o⟩ ∉ g.toSet) ∧ StatesProperty g.toSet shape p := by
  constructor
  · intro hok
    unfold ofTerm at hok
    split at hok
    · cases hok
    · next s hs =>
      split at hok
      · cases hok
      · next path hpath =>
        unfold ofPath at hok
        split at hok
        · cases hok
        · cases hok
        · next hclass =>
          split at hok
          · next datatype hdatatype =>
            cases hok
            exact ⟨s, Term.subject?_eq_some_iff.1 hs, Graph.object?_eq_none_iff.1 hclass,
              (iriAt?_eq_some_iff h.path).1 hpath, (iriAt?_eq_some_iff h.datatype).1 hdatatype,
              (statesCardinality_iff h).2 rfl⟩
          · cases hok
  · rintro ⟨s, rfl, hclass, hpath, hdatatype, hc⟩
    rw [← Graph.object?_eq_none_iff] at hclass
    rw [← iriAt?_eq_some_iff h.path] at hpath
    rw [← iriAt?_eq_some_iff h.datatype] at hdatatype
    rw [statesCardinality_iff h] at hc
    simp only [ofTerm, Rdf.Subject.subject?_toTerm, hpath, ofPath, hclass, hdatatype, hc]

/-- A property shape is read as a relationship if it has a path and its class is an IRI. -/
private theorem PropertyShape.ofTerm_eq_relation_iff (h : Unambiguous g.toSet) {value : Term}
    {path range : Iri} {c : Cardinality} {properties : List Property} :
    PropertyShape.ofTerm g value = .ok (.relation path range c properties) ↔
      ∃ shape : Subject, value = shape.toTerm ∧
        ⟨shape, Vocabulary.path, .iri path⟩ ∈ g.toSet ∧
        ⟨shape, Vocabulary.class, .iri range⟩ ∈ g.toSet ∧
        StatesCardinality g.toSet shape c ∧ nestedAt g shape = properties := by
  constructor
  · intro hok
    unfold ofTerm at hok
    split at hok
    · cases hok
    · next s hs =>
      split at hok
      · cases hok
      · next path hpath =>
        unfold ofPath at hok
        split at hok
        · next range hrange =>
          cases hok
          exact ⟨s, Term.subject?_eq_some_iff.1 hs, (iriAt?_eq_some_iff h.path).1 hpath,
            Graph.mem_of_object? hrange, (statesCardinality_iff h).2 rfl, rfl⟩
        · cases hok
        · split at hok <;> cases hok
  · rintro ⟨s, rfl, hpath, hclass, hc, rfl⟩
    rw [← iriAt?_eq_some_iff h.path] at hpath
    rw [← Graph.object?_eq_some_iff h.range] at hclass
    rw [statesCardinality_iff h] at hc
    simp only [ofTerm, Rdf.Subject.subject?_toTerm, hpath, ofPath, hclass, hc]

/-- The classes of a node are those in the set. -/
theorem NodeShape.mem_targetsOf_iff {node : Subject} {target : Iri} :
    target ∈ NodeShape.targetsOf g node ↔
      ⟨node, Vocabulary.targetClass, .iri target⟩ ∈ g.toSet := by
  simp [NodeShape.targetsOf, Term.iri?_eq_some_iff, Graph.mem_objects_iff]

/-- A node shape that is read has a target class, in every graph. -/
theorem NodeShape.describes_of_mem {n : NodeShape} (hn : n ∈ NodeShape.ofGraph g) :
    Describes g.toSet n.node n.target := by
  simp only [NodeShape.ofGraph, List.mem_filterMap, Option.map_eq_some_iff] at hn
  obtain ⟨node, hnode, target, htarget, rfl⟩ := hn
  exact ⟨Graph.mem_subjects_iff.1 hnode,
    NodeShape.mem_targetsOf_iff.1 (List.mem_of_mem_head? htarget)⟩

/-- **Node shapes** are read as they are described. -/
theorem NodeShape.mem_ofGraph_iff (h : Unambiguous g.toSet) {n : NodeShape} :
    n ∈ NodeShape.ofGraph g ↔ Describes g.toSet n.node n.target := by
  constructor
  · exact NodeShape.describes_of_mem
  · rintro ⟨htype, htarget⟩
    have hmem := NodeShape.mem_targetsOf_iff.2 htarget
    have hhead : (NodeShape.targetsOf g n.node).head? = some n.target := by
      cases hl : NodeShape.targetsOf g n.node with
      | nil => simp [hl] at hmem
      | cons first rest =>
        have hfirst : first ∈ NodeShape.targetsOf g n.node := by simp [hl]
        rw [List.head?_cons, h.target (NodeShape.mem_targetsOf_iff.1 hfirst) htarget]
    simp only [NodeShape.ofGraph, List.mem_filterMap]
    exact ⟨n.node, Graph.mem_subjects_iff.2 htype, by rw [hhead, Option.map_some]⟩

/-! ## Reading facts -/

/-- The facts that the node shapes of a graph state, as they are met: classes first. -/
def NodeShape.allFacts (g : Graph) : List Fact :=
  (NodeShape.ofGraph g).map (fun n => .ofClass ⟨n.subject, n.target⟩) ++
    (NodeShape.ofGraph g).flatMap (·.facts g)

/-- Everything that is met is stated. -/
theorem states_of_mem_allFacts (h : Unambiguous g.toSet) {f : Fact}
    (hf : f ∈ NodeShape.allFacts g) : States g.toSet f := by
  rcases List.mem_append.1 hf with hf | hf
  · obtain ⟨n, hn, rfl⟩ := List.mem_map.1 hf
    exact .ofClass (NodeShape.describes_of_mem hn)
  · obtain ⟨n, hn, hf⟩ := List.mem_flatMap.1 hf
    simp only [NodeShape.facts, List.mem_filterMap, Option.map_eq_some_iff,
      toOption_eq_some_iff] at hf
    obtain ⟨value, hvalue, said, hsaid, rfl⟩ := hf
    have hnode := NodeShape.describes_of_mem hn
    rw [Graph.mem_objects_iff] at hvalue
    cases said with
    | property p =>
      obtain ⟨s, rfl, hclass, hp⟩ := (PropertyShape.ofTerm_eq_property_iff h).1 hsaid
      exact .ofProperty hnode hvalue hclass hp
    | relation path range c properties =>
      obtain ⟨s, rfl, hpath, hclass, hc, rfl⟩ :=
        (PropertyShape.ofTerm_eq_relation_iff h).1 hsaid
      exact .ofRelation hnode hvalue hpath hclass hc
        ((statesProperties_iff h).2 (List.Perm.refl _))

/-- What a value of `sh:property` says is met as a fact of its node shape. -/
private theorem mem_allFacts_of_ofTerm {n : NodeShape} (hn : n ∈ NodeShape.ofGraph g) {value : Term}
    (hvalue : ⟨n.node, Vocabulary.property, value⟩ ∈ g.toSet) {said : PropertyShape}
    (hsaid : PropertyShape.ofTerm g value = .ok said) :
    said.fact n.subject ∈ NodeShape.allFacts g := by
  refine List.mem_append_right _ (List.mem_flatMap.2 ⟨n, hn, ?_⟩)
  rw [NodeShape.facts, List.mem_filterMap]
  exact ⟨value, Graph.mem_objects_iff.2 hvalue, by rw [hsaid]; rfl⟩

/-- **Facts.** What is stated is what is met, up to the order of the properties of relationships. -/
theorem states_iff (h : Unambiguous g.toSet) {f : Fact} :
    States g.toSet f ↔ ∃ f' ∈ NodeShape.allFacts g, f'.content = f.content := by
  constructor
  · intro hf
    cases hf with
    | @ofClass node target hnode =>
      refine ⟨_, List.mem_append_left _ (List.mem_map.2 ⟨⟨node, target⟩, ?_, rfl⟩), rfl⟩
      exact (NodeShape.mem_ofGraph_iff h).2 hnode
    | @ofProperty node shape target p hnode hshape hclass hp =>
      have hn : ⟨node, target⟩ ∈ NodeShape.ofGraph g := (NodeShape.mem_ofGraph_iff h).2 hnode
      have hsaid := (PropertyShape.ofTerm_eq_property_iff h).2 ⟨shape, rfl, hclass, hp⟩
      exact ⟨_, mem_allFacts_of_ofTerm hn hshape hsaid, rfl⟩
    | @ofRelation node shape target path range c properties hnode hshape hpath hclass hc hps =>
      have hn : ⟨node, target⟩ ∈ NodeShape.ofGraph g := (NodeShape.mem_ofGraph_iff h).2 hnode
      have hsaid := (PropertyShape.ofTerm_eq_relation_iff h).2
        ⟨shape, rfl, hpath, hclass, hc, rfl⟩
      refine ⟨_, mem_allFacts_of_ofTerm hn hshape hsaid, ?_⟩
      have hperm := ((statesProperties_iff h).1 hps).symm
      simp [PropertyShape.fact, Fact.content, RelationFact.content, RelationFact.toClass,
        NodeShape.subject, Multiset.coe_eq_coe.2 hperm]
  · rintro ⟨f', hf', hcontent⟩
    exact (states_of_mem_allFacts h hf').of_content_eq hcontent.symm

end Reading

end ShapeSchema
