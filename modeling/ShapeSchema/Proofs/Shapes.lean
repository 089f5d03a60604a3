import Mathlib.Data.List.Pairwise
import ShapeSchema.Proofs.Count
import ShapeSchema.Proofs.Reading

/-!
# Shapes that were made of statements

The triples that statements become are those of their node shapes and those of their property
shapes. A property shape is a blank node with a number; numbers are given out in order, so that no
two property shapes have one number, and every lookup in the graph leads to one record of how the
property shape was made. So the graph of some statements is unambiguous.

## Main definitions

* `ShapeSchema.MadeShape` — a property shape with its owner and its number.
* `ShapeSchema.Statements.placed` — the facts with the shapes of their subjects and the numbers of
  their property shapes.
* `ShapeSchema.Statements.madeShapes` — all property shapes.
* `ShapeSchema.Statements.Shapely` — every class has a valid IRI for its shape.

## Main results

* `ShapeSchema.Statements.mem_toShapes_iff` — the triples.
* `ShapeSchema.Statements.shapeIri?_subject` — the shape of a subject is that of its class.
* `ShapeSchema.Statements.describes_toShapes_iff` — the node shapes that are described.
* `ShapeSchema.Statements.unambiguous_toShapes` — no order of reading makes a difference.
-/

namespace ShapeSchema

open Rdf (BlankNode Graph SingleValued Subject Term Triple)

/-! ## Property shapes -/

/-- What a property shape demands of values. -/
inductive ShapeRange where
  /-- A datatype. -/
  | datatype (iri : Iri)
  /-- A class. -/
  | ofClass (iri : Iri)

/-- A property shape that was made: a blank node that belongs to an owner. -/
structure MadeShape where
  /-- The shape that it stands in. -/
  owner : Subject
  /-- The number of its blank node. -/
  number : Nat
  /-- The property or the relationship. -/
  path : Iri
  /-- The datatype or the class of the values. -/
  range : ShapeRange
  /-- The bounds. -/
  cardinality : Cardinality

/-- The triple that demands a datatype or a class. -/
def ShapeRange.triple (shape : Subject) : ShapeRange → Triple
  | datatype iri => ⟨shape, Vocabulary.datatype, .iri iri⟩
  | ofClass iri => ⟨shape, Vocabulary.class, .iri iri⟩

namespace MadeShape

/-- The blank node. -/
def node (m : MadeShape) : Subject := .blank (.fresh m.number)

/-- A number belongs to one node. -/
theorem node_eq_node_iff {m n : MadeShape} : m.node = n.node ↔ m.number = n.number := by
  simp [node]

/-- The triples of a property shape. -/
def triples (m : MadeShape) : List Triple :=
  shapeTriples m.owner (.fresh m.number) m.path ++
    m.range.triple m.node :: m.cardinality.triples m.node

/-- The triples of a property shape, one by one. -/
theorem mem_triples_iff {m : MadeShape} {t : Triple} :
    t ∈ m.triples ↔ t = ⟨m.owner, Vocabulary.property, m.node.toTerm⟩ ∨
      t = ⟨m.node, Vocabulary.type, .iri Vocabulary.propertyShape⟩ ∨
      t = ⟨m.node, Vocabulary.path, .iri m.path⟩ ∨
      (∃ iri, m.range = .datatype iri ∧ t = ⟨m.node, Vocabulary.datatype, .iri iri⟩) ∨
      (∃ iri, m.range = .ofClass iri ∧ t = ⟨m.node, Vocabulary.class, .iri iri⟩) ∨
      (0 < m.cardinality.min ∧ t = ⟨m.node, Vocabulary.minCount, countLiteral m.cardinality.min⟩) ∨
      ∃ max, m.cardinality.max = some max ∧
        t = ⟨m.node, Vocabulary.maxCount, countLiteral max⟩ := by
  have hrange : t = m.range.triple m.node ↔
      (∃ iri, m.range = .datatype iri ∧ t = ⟨m.node, Vocabulary.datatype, .iri iri⟩) ∨
        ∃ iri, m.range = .ofClass iri ∧ t = ⟨m.node, Vocabulary.class, .iri iri⟩ := by
    cases m.range <;> simp [ShapeRange.triple]
  have hmin : t ∈ (if m.cardinality.min > 0 then
        [(⟨m.node, Vocabulary.minCount, countLiteral m.cardinality.min⟩ : Triple)] else []) ↔
      0 < m.cardinality.min ∧
        t = ⟨m.node, Vocabulary.minCount, countLiteral m.cardinality.min⟩ := by
    split <;> simp_all
  have hmax : t ∈ m.cardinality.max.toList.map (fun max =>
        (⟨m.node, Vocabulary.maxCount, countLiteral max⟩ : Triple)) ↔
      ∃ max, m.cardinality.max = some max ∧
        t = ⟨m.node, Vocabulary.maxCount, countLiteral max⟩ := by
    simp only [List.mem_map, Option.mem_toList, eq_comm]
  simp only [triples, shapeTriples, Cardinality.triples, List.mem_append, hmin, hmax, hrange,
    List.mem_cons, List.not_mem_nil, or_false, or_assoc]
  rfl

end MadeShape

/-! ## Property shapes of facts -/

/-- The shape of a property. -/
def Property.madeShape (owner : Subject) (number : Nat) (p : Property) : MadeShape :=
  ⟨owner, number, p.predicate, .datatype p.datatype, p.cardinality⟩

/-- What the shape of a property was made of. -/
theorem Property.eq_of_madeShape_eq {p q : Property} {o₁ o₂ : Subject} {n₁ n₂ : Nat}
    (h : p.madeShape o₁ n₁ = q.madeShape o₂ n₂) : p = q ∧ n₁ = n₂ := by
  obtain ⟨_, _, _⟩ := p
  obtain ⟨_, _, _⟩ := q
  simp only [Property.madeShape, MadeShape.mk.injEq, ShapeRange.datatype.injEq] at h
  obtain ⟨-, rfl, rfl, rfl, rfl⟩ := h
  exact ⟨rfl, rfl⟩

/-- The shapes of the properties of a relationship, from the given number on. -/
def madeShapesOf (owner : Subject) (number : Nat) (ps : List Property) : List MadeShape :=
  (ps.zipIdx number).map fun e => e.1.madeShape owner e.2

/-- The shape of a relationship, without those inside it. -/
def RelationFact.madeShape (owner : Subject) (number : Nat) (f : RelationFact) : MadeShape :=
  ⟨owner, number, f.predicate, .ofClass f.target, f.cardinality⟩

/-- The property shapes of a fact, from the given number on. -/
def Fact.madeShapes (shape : Iri) (number : Nat) : Fact → List MadeShape
  | ofClass _ => []
  | ofProperty f => [f.property.madeShape (.iri shape) number]
  | ofRelation f => f.madeShape (.iri shape) number ::
      madeShapesOf (.blank (.fresh number)) (number + 1) f.properties

/-- The triples inside the shape of a relationship are those of the shapes inside. -/
private theorem nestedTriples_eq_flatMap (owner : Subject) (number : Nat) (ps : List Property) :
    nestedTriples owner number ps = (madeShapesOf owner number ps).flatMap MadeShape.triples := by
  induction ps generalizing number with
  | nil => rfl
  | cons p ps ih =>
    rw [nestedTriples, madeShapesOf, List.zipIdx_cons, List.map_cons, List.flatMap_cons, ih]
    rfl

/-- The triples of a fact: its subject is a node shape, a class is its target, and property shapes
belong to it. -/
theorem Fact.mem_triples_iff {shape : Iri} {number : Nat} {f : Fact} {t : Triple} :
    t ∈ f.triples shape number ↔ t = ⟨.iri shape, Vocabulary.type, .iri Vocabulary.nodeShape⟩ ∨
      (∃ c, f = .ofClass c ∧ t = ⟨.iri shape, Vocabulary.targetClass, .iri c.object⟩) ∨
      ∃ m ∈ f.madeShapes shape number, t ∈ m.triples := by
  unfold triples
  rw [List.mem_cons]
  cases f with
  | ofClass c => simp [madeShapes]
  | ofProperty p =>
    have htriples : p.property.triples (.iri shape) (.fresh number) =
        (p.property.madeShape (.iri shape) number).triples := rfl
    simp [madeShapes, htriples]
  | ofRelation r =>
    have htriples : r.triples (.iri shape) number =
        (r.madeShape (.iri shape) number).triples ++
          nestedTriples (.blank (.fresh number)) (number + 1) r.properties := rfl
    simp [madeShapes, htriples, nestedTriples_eq_flatMap]

/-- The shapes of properties are numbered one after the other. -/
theorem numbers_madeShapesOf (owner : Subject) (number : Nat) (ps : List Property) :
    (madeShapesOf owner number ps).map MadeShape.number = List.range' number ps.length := by
  rw [madeShapesOf, List.map_map, ← List.zipIdx_map_snd]
  rfl

/-- The shapes of a fact are numbered one after the other. -/
theorem Fact.numbers_madeShapes (shape : Iri) (number : Nat) (f : Fact) :
    (f.madeShapes shape number).map MadeShape.number = List.range' number f.shapeCount := by
  cases f with
  | ofClass c => rfl
  | ofProperty p => rfl
  | ofRelation r =>
    rw [madeShapes, List.map_cons, numbers_madeShapesOf, shapeCount,
      Nat.add_comm 1 r.properties.length, List.range'_succ]
    rfl

/-! ## Facts in their places -/

/-- A fact with the shape of its subject and the number of its first property shape. -/
structure PlacedFact where
  /-- The shape of the subject. -/
  shape : Iri
  /-- The number. -/
  number : Nat
  /-- The fact. -/
  fact : Fact

/-- The property shapes of a fact in its place. -/
def PlacedFact.madeShapes (p : PlacedFact) : List MadeShape := p.fact.madeShapes p.shape p.number

namespace Statements

variable {s : Statements}

/-- The facts of a list whose subjects have shapes, in their places from the given number on. -/
def placedFrom (s : Statements) (number : Nat) : List Fact → List PlacedFact
  | [] => []
  | f :: fs =>
    match s.shapeIri? f.subject with
    | some shape => ⟨shape, number, f⟩ :: s.placedFrom (number + f.shapeCount) fs
    | none => s.placedFrom number fs

/-- The facts that shapes are made of, in their places. -/
def placed (s : Statements) : List PlacedFact := s.placedFrom 0 s.shapeFacts

/-- The property shapes that are made. -/
def madeShapes (s : Statements) : List MadeShape := s.placed.flatMap PlacedFact.madeShapes

/-- The triples of facts are those of each fact in its place. -/
theorem triplesOf_eq_flatMap (s : Statements) (number : Nat) (fs : List Fact) :
    s.triplesOf number fs =
      (s.placedFrom number fs).flatMap fun p => p.fact.triples p.shape p.number := by
  induction fs generalizing number with
  | nil => rfl
  | cons f fs ih =>
    unfold triplesOf placedFrom
    cases s.shapeIri? f.subject with
    | some shape => simp only [List.flatMap_cons, ih]
    | none => simp only [ih]

/-- **Numbers** are given out in order. -/
theorem numbers_placedFrom (s : Statements) (number : Nat) (fs : List Fact) :
    ∃ k, ((s.placedFrom number fs).flatMap PlacedFact.madeShapes).map MadeShape.number =
      List.range' number k := by
  induction fs generalizing number with
  | nil => exact ⟨0, rfl⟩
  | cons f fs ih =>
    unfold placedFrom
    split
    · next shape hshape =>
      obtain ⟨k, hk⟩ := ih (number + f.shapeCount)
      refine ⟨f.shapeCount + k, ?_⟩
      rw [List.flatMap_cons, List.map_append, hk, PlacedFact.madeShapes, Fact.numbers_madeShapes,
        List.range'_append_1]
    · exact ih number

/-- No number is given out twice. -/
theorem nodup_numbers (s : Statements) : (s.madeShapes.map MadeShape.number).Nodup := by
  obtain ⟨k, hk⟩ := numbers_placedFrom s 0 s.shapeFacts
  rw [madeShapes, placed, hk]
  exact List.nodup_range'

/-- A property shape is known by its number. -/
theorem eq_of_number_eq {m n : MadeShape} (hm : m ∈ s.madeShapes) (hn : n ∈ s.madeShapes)
    (h : m.number = n.number) : m = n :=
  List.inj_on_of_nodup_map s.nodup_numbers hm hn h

/-- A property shape belongs to one fact. -/
theorem placed_eq_of_number_eq {p q : PlacedFact} (hp : p ∈ s.placed) (hq : q ∈ s.placed)
    {m n : MadeShape} (hm : m ∈ p.madeShapes) (hn : n ∈ q.madeShapes)
    (h : m.number = n.number) : p = q := by
  have hmn : m = n := eq_of_number_eq (List.mem_flatMap.2 ⟨p, hp, hm⟩)
    (List.mem_flatMap.2 ⟨q, hq, hn⟩) h
  have hdisjoint := (List.nodup_flatMap.1 (List.Nodup.of_map _ s.nodup_numbers)).2
  have hsymm : Std.Symm (Function.onFun List.Disjoint PlacedFact.madeShapes) :=
    ⟨fun _ _ hd _ ha hb => hd hb ha⟩
  by_contra hne
  exact hdisjoint.forall hp hq hne hm (hmn ▸ hn)

/-- A fact in its place is one of the facts, and it stands under the shape of its subject. -/
theorem of_mem_placedFrom {number : Nat} {fs : List Fact} {p : PlacedFact}
    (h : p ∈ s.placedFrom number fs) :
    p.fact ∈ fs ∧ s.shapeIri? p.fact.subject = some p.shape := by
  induction fs generalizing number with
  | nil => simp [placedFrom] at h
  | cons f fs ih =>
    unfold placedFrom at h
    split at h
    · next shape hshape =>
      rcases List.mem_cons.1 h with rfl | h
      · exact ⟨List.mem_cons_self, hshape⟩
      · exact ⟨List.mem_cons_of_mem _ (ih h).1, (ih h).2⟩
    · exact ⟨List.mem_cons_of_mem _ (ih h).1, (ih h).2⟩

/-- A fact of the list whose subject has a shape has a place. -/
theorem exists_mem_placedFrom (number : Nat) {fs : List Fact} {f : Fact} {shape : Iri} (hf : f ∈ fs)
    (hshape : s.shapeIri? f.subject = some shape) :
    ∃ p ∈ s.placedFrom number fs, p.fact = f ∧ p.shape = shape := by
  induction fs generalizing number with
  | nil => simp at hf
  | cons g fs ih =>
    unfold placedFrom
    rcases List.mem_cons.1 hf with rfl | hf
    · rw [hshape]
      exact ⟨_, List.mem_cons_self, rfl, rfl⟩
    · split
      · obtain ⟨p, hp, hplace⟩ := ih _ hf
        exact ⟨p, List.mem_cons_of_mem _ hp, hplace⟩
      · exact ih _ hf

/-! ## Triples of the graph -/

/-- **Triples.** The graph of some statements has the triples of their node shapes and those of
their property shapes. -/
theorem mem_toShapes_iff {t : Triple} :
    t ∈ s.toShapes.toSet ↔
      (∃ p ∈ s.placed, t = ⟨.iri p.shape, Vocabulary.type, .iri Vocabulary.nodeShape⟩) ∨
      (∃ p ∈ s.placed, ∃ c, p.fact = .ofClass c ∧
        t = ⟨.iri p.shape, Vocabulary.targetClass, .iri c.object⟩) ∨
      ∃ m ∈ s.madeShapes, t ∈ m.triples := by
  rw [toShapes, Graph.mem_toSet_ofList, triplesOf_eq_flatMap, List.mem_flatMap]
  simp only [Fact.mem_triples_iff, and_or_left, exists_or, madeShapes, List.mem_flatMap,
    PlacedFact.madeShapes, placed]
  refine or_congr Iff.rfl (or_congr Iff.rfl ?_)
  constructor
  · rintro ⟨p, hp, m, hm, ht⟩
    exact ⟨m, ⟨p, hp, hm⟩, ht⟩
  · rintro ⟨m, ⟨p, hp, hm⟩, ht⟩
    exact ⟨p, hp, m, hm, ht⟩

section Lookups

variable {node : Subject} {value : Term}

/-- Node shapes are the shapes of subjects. -/
theorem nodeShape_mem_toShapes_iff :
    ⟨node, Vocabulary.type, .iri Vocabulary.nodeShape⟩ ∈ s.toShapes.toSet ↔
      ∃ p ∈ s.placed, node = .iri p.shape := by
  simp +decide [mem_toShapes_iff, MadeShape.mem_triples_iff]

/-- Target classes are those of the classes. -/
theorem targetClass_mem_toShapes_iff :
    ⟨node, Vocabulary.targetClass, value⟩ ∈ s.toShapes.toSet ↔
      ∃ p ∈ s.placed, ∃ c, p.fact = .ofClass c ∧ node = .iri p.shape ∧ value = .iri c.object := by
  simp +decide [mem_toShapes_iff, MadeShape.mem_triples_iff]

/-- Every property shape belongs to its owner. -/
theorem property_mem_toShapes_iff :
    ⟨node, Vocabulary.property, value⟩ ∈ s.toShapes.toSet ↔
      ∃ m ∈ s.madeShapes, node = m.owner ∧ value = m.node.toTerm := by
  simp +decide [mem_toShapes_iff, MadeShape.mem_triples_iff]

/-- The paths in the graph are those of property shapes. -/
theorem path_mem_toShapes_iff :
    ⟨node, Vocabulary.path, value⟩ ∈ s.toShapes.toSet ↔
      ∃ m ∈ s.madeShapes, node = m.node ∧ value = .iri m.path := by
  simp +decide [mem_toShapes_iff, MadeShape.mem_triples_iff]

/-- The datatypes in the graph are those of property shapes. -/
theorem datatype_mem_toShapes_iff :
    ⟨node, Vocabulary.datatype, value⟩ ∈ s.toShapes.toSet ↔
      ∃ m ∈ s.madeShapes, ∃ iri, m.range = .datatype iri ∧ node = m.node ∧ value = .iri iri := by
  simp +decide [mem_toShapes_iff, MadeShape.mem_triples_iff]

/-- The classes in the graph are those of property shapes. -/
theorem class_mem_toShapes_iff :
    ⟨node, Vocabulary.class, value⟩ ∈ s.toShapes.toSet ↔
      ∃ m ∈ s.madeShapes, ∃ iri, m.range = .ofClass iri ∧ node = m.node ∧ value = .iri iri := by
  simp +decide [mem_toShapes_iff, MadeShape.mem_triples_iff]

/-- The lower bounds in the graph are those of property shapes that are not zero. -/
theorem minCount_mem_toShapes_iff :
    ⟨node, Vocabulary.minCount, value⟩ ∈ s.toShapes.toSet ↔
      ∃ m ∈ s.madeShapes, 0 < m.cardinality.min ∧ node = m.node ∧
        value = countLiteral m.cardinality.min := by
  simp +decide [mem_toShapes_iff, MadeShape.mem_triples_iff]

/-- The upper bounds in the graph are those of property shapes. -/
theorem maxCount_mem_toShapes_iff :
    ⟨node, Vocabulary.maxCount, value⟩ ∈ s.toShapes.toSet ↔
      ∃ m ∈ s.madeShapes, ∃ max, m.cardinality.max = some max ∧ node = m.node ∧
        value = countLiteral max := by
  simp +decide [mem_toShapes_iff, MadeShape.mem_triples_iff]

end Lookups

/-! ## Shapes of subjects -/

/-- The shape of a class. -/
def shapeOf (c : ClassFact) : Iri := ⟨c.object.text ++ "Shape"⟩

/-- Every class has a valid IRI for its shape. -/
def Shapely (s : Statements) : Prop := ∀ c ∈ s.classFacts, (shapeOf c).IsValid

instance (s : Statements) : Decidable s.Shapely :=
  inferInstanceAs (Decidable (∀ c ∈ s.classFacts, (shapeOf c).IsValid))

/-- Classes with one shape are one class. -/
theorem object_eq_of_shapeOf_eq {c d : ClassFact} (h : shapeOf c = shapeOf d) :
    c.object = d.object := by
  have htext := congrArg Iri.text h
  simp only [shapeOf, String.append_left_inj] at htext
  obtain ⟨_, ⟨_⟩⟩ := c
  obtain ⟨_, ⟨_⟩⟩ := d
  exact congrArg Iri.mk htext

/-- **Shapes.** The shape of a subject is that of its class. -/
theorem shapeIri?_subject (hshapes : s.Shapely) {c : ClassFact}
    (hc : c ∈ s.classFacts) : s.shapeIri? c.subject = some (shapeOf c) := by
  have hshape : c.shapeIri? = some (shapeOf c) := if_pos (hshapes c hc)
  have hmem : shapeOf c ∈
      (s.classFacts.filter (·.subject = c.subject)).filterMap ClassFact.shapeIri? :=
    List.mem_filterMap.2 ⟨c, List.mem_filter.2 ⟨hc, decide_eq_true rfl⟩, hshape⟩
  obtain ⟨shape, hlast⟩ := Option.ne_none_iff_exists'.1
    (List.getLast?_eq_none_iff.not.2 (List.ne_nil_of_mem hmem))
  -- the last class of the subject is the only one
  obtain ⟨d, hd, hdshape⟩ := List.mem_filterMap.1 (List.mem_of_getLast? hlast)
  obtain ⟨hd, hsubject⟩ := List.mem_filter.1 hd
  rw [eq_of_subject_eq hd hc (of_decide_eq_true hsubject), hshape] at hdshape
  rw [shapeIri?, hlast, ← Option.some.inj hdshape]
  rfl

/-- The shape of a fact in its place is that of the class of its subject. -/
theorem exists_class_of_mem_placed (hc : s.Closed) (hshapes : s.Shapely)
    {p : PlacedFact} (hp : p ∈ s.placed) :
    ∃ c ∈ s.classFacts, c.subject = p.fact.subject ∧ p.shape = shapeOf c := by
  obtain ⟨hfact, hshape⟩ := of_mem_placedFrom hp
  obtain ⟨c, hcmem, hsubject⟩ := hc.hasSubject hfact
  rw [← hsubject, shapeIri?_subject hshapes hcmem] at hshape
  exact ⟨c, hcmem, hsubject, (Option.some.inj hshape).symm⟩

/-- A class in its place has its own shape. -/
private theorem class_of_mem_placed (hc : s.Closed) (hshapes : s.Shapely)
    {p : PlacedFact} (hp : p ∈ s.placed) {c : ClassFact} (hfact : p.fact = .ofClass c) :
    c ∈ s.classFacts ∧ p.shape = shapeOf c := by
  obtain ⟨hmem, -⟩ := of_mem_placedFrom hp
  obtain ⟨d, hdmem, hsubject, hshape⟩ := exists_class_of_mem_placed hc hshapes hp
  rw [hfact] at hmem hsubject
  have hcmem : c ∈ s.classFacts := mem_classFacts_iff.2 (mem_shapeFacts_iff.1 hmem).1
  rw [eq_of_subject_eq hdmem hcmem hsubject] at hshape
  exact ⟨hcmem, hshape⟩

/-- Every fact of closed statements has a place. -/
theorem exists_placed (hc : s.Closed) (hshapes : s.Shapely) {f : Fact}
    (hf : f ∈ s.shapeFacts) : ∃ p ∈ s.placed, p.fact = f := by
  obtain ⟨c, hcmem, hsubject⟩ := hc.hasSubject hf
  have hshape := shapeIri?_subject hshapes hcmem
  rw [hsubject] at hshape
  obtain ⟨p, hp, hfact, -⟩ := exists_mem_placedFrom 0 hf hshape
  exact ⟨p, hp, hfact⟩

/-! ## Unambiguity -/

/-- A node belongs to one property shape. -/
theorem eq_of_node_eq {m n : MadeShape} (hm : m ∈ s.madeShapes) (hn : n ∈ s.madeShapes)
    (h : m.node = n.node) : m = n :=
  eq_of_number_eq hm hn (MadeShape.node_eq_node_iff.1 h)

/-- A node shape describes one class, which is a class of the statements. -/
theorem describes_toShapes_iff (hc : s.Closed) (hshapes : s.Shapely)
    {node : Subject} {target : Iri} :
    Describes s.toShapes.toSet node target ↔
      ∃ c ∈ s.classFacts, node = .iri (shapeOf c) ∧ target = c.object := by
  constructor
  · rintro ⟨-, htarget⟩
    obtain ⟨p, hp, c, hfact, rfl, hobject⟩ := targetClass_mem_toShapes_iff.1 htarget
    obtain ⟨hcmem, hshape⟩ := class_of_mem_placed hc hshapes hp hfact
    exact ⟨c, hcmem, by rw [hshape], Term.iri.inj hobject⟩
  · rintro ⟨c, hcmem, rfl, rfl⟩
    have hmem : .ofClass c ∈ s.shapeFacts :=
      mem_shapeFacts_iff.2 ⟨mem_classFacts_iff.1 hcmem, rfl⟩
    obtain ⟨p, hp, hfact⟩ := exists_placed hc hshapes hmem
    obtain ⟨-, hshape⟩ := class_of_mem_placed hc hshapes hp hfact
    rw [← hshape]
    exact ⟨nodeShape_mem_toShapes_iff.2 ⟨p, hp, rfl⟩,
      targetClass_mem_toShapes_iff.2 ⟨p, hp, c, hfact, rfl, rfl⟩⟩

/-- **Unambiguity.** No order of reading makes a difference to the graph of some statements. -/
theorem unambiguous_toShapes (hc : s.Closed) (hshapes : s.Shapely) :
    Unambiguous s.toShapes.toSet where
  path := by
    intro node a b ha hb
    obtain ⟨m, hm, rfl, rfl⟩ := path_mem_toShapes_iff.1 ha
    obtain ⟨n, hn, hnode, rfl⟩ := path_mem_toShapes_iff.1 hb
    rw [eq_of_node_eq hm hn hnode]
  range := by
    intro node a b ha hb
    obtain ⟨m, hm, i, hi, rfl, rfl⟩ := class_mem_toShapes_iff.1 ha
    obtain ⟨n, hn, j, hj, hnode, rfl⟩ := class_mem_toShapes_iff.1 hb
    rw [eq_of_node_eq hm hn hnode, hj] at hi
    rw [ShapeRange.ofClass.inj hi]
  datatype := by
    intro node a b ha hb
    obtain ⟨m, hm, i, hi, rfl, rfl⟩ := datatype_mem_toShapes_iff.1 ha
    obtain ⟨n, hn, j, hj, hnode, rfl⟩ := datatype_mem_toShapes_iff.1 hb
    rw [eq_of_node_eq hm hn hnode, hj] at hi
    rw [ShapeRange.datatype.inj hi]
  minCount := by
    intro node a b ha hb
    obtain ⟨m, hm, -, rfl, rfl⟩ := minCount_mem_toShapes_iff.1 ha
    obtain ⟨n, hn, -, hnode, rfl⟩ := minCount_mem_toShapes_iff.1 hb
    rw [eq_of_node_eq hm hn hnode]
  maxCount := by
    intro node a b ha hb
    obtain ⟨m, hm, i, hi, rfl, rfl⟩ := maxCount_mem_toShapes_iff.1 ha
    obtain ⟨n, hn, j, hj, hnode, rfl⟩ := maxCount_mem_toShapes_iff.1 hb
    rw [eq_of_node_eq hm hn hnode, hj] at hi
    rw [Option.some.inj hi]
  target := by
    intro node a b ha hb
    obtain ⟨p, hp, c, hpc, rfl, hac⟩ := targetClass_mem_toShapes_iff.1 ha
    obtain ⟨q, hq, d, hqd, hnode, hbd⟩ := targetClass_mem_toShapes_iff.1 hb
    obtain ⟨-, hpshape⟩ := class_of_mem_placed hc hshapes hp hpc
    obtain ⟨-, hqshape⟩ := class_of_mem_placed hc hshapes hq hqd
    rw [Subject.iri.injEq, hpshape, hqshape] at hnode
    rw [Term.iri.inj hac, Term.iri.inj hbd, object_eq_of_shapeOf_eq hnode]

end Statements

end ShapeSchema
