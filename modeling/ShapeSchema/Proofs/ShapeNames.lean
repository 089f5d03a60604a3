import Mathlib.Data.Finset.Card
import ShapeSchema.Proofs.RoundTrip

/-!
# Names of shapes

The shape of a subject is named after its class, and that of a subject without a class after the
subject itself, in the namespace. Every name is valid on its own; nothing sees to it that two
subjects have two names. They have one name in two cases: both stand for one class, or one of them
stands for the class that has the IRI of the other one in the namespace. So there is one node shape
for each subject just if neither case occurs.

## Main definitions

* `ShapeSchema.Statements.stem` — what the shape of a subject is named after.
* `ShapeSchema.Statements.ValidShapes` — shapes have valid names.
* `ShapeSchema.Statements.Unmixed` — neither of the two cases occurs.

## Main results

* `ShapeSchema.Statements.shapeIri?_eq_stem` — the name of a shape.
* `ShapeSchema.Statements.unmixed_iff_injOn_stem` — the two cases are all.
* `ShapeSchema.Statements.nodeShapes_ofList` — when there is one node shape for each subject.
-/

namespace ShapeSchema

open Rdf (Graph Subject Term)

namespace Statements

variable {s : Statements}

/-! ## Stems -/

/-- What the shape of a subject is named after: its class, or else the subject in the namespace. -/
def stem (s : Statements) (subject : String) : String :=
  ((s.classFacts.find? (·.subject = subject)).map (·.object.text)).getD (s.space ++ subject)

/-- The shapes of subjects have valid names. -/
def ValidShapes (s : Statements) : Prop :=
  ∀ f ∈ s.shapeFacts, Iri.IsValid ⟨s.stem f.subject ++ "Shape"⟩

instance (s : Statements) : Decidable s.ValidShapes :=
  inferInstanceAs (Decidable (∀ f ∈ s.shapeFacts, Iri.IsValid ⟨s.stem f.subject ++ "Shape"⟩))

/-- No two subjects have one name for their shapes. -/
structure Unmixed (s : Statements) : Prop where
  /-- Subjects that stand for one class are one subject. -/
  classes : ∀ c ∈ s.classFacts, ∀ d ∈ s.classFacts, c.object = d.object → c.subject = d.subject
  /-- No class has the IRI of a subject without a class. -/
  names : ∀ c ∈ s.classFacts, ∀ f ∈ s.shapeFacts, ¬s.HasSubject f.subject →
    c.object.text ≠ s.space ++ f.subject

instance (s : Statements) : Decidable s.Unmixed :=
  decidable_of_iff
    ((∀ c ∈ s.classFacts, ∀ d ∈ s.classFacts, c.object = d.object → c.subject = d.subject) ∧
      ∀ c ∈ s.classFacts, ∀ f ∈ s.shapeFacts, ¬s.HasSubject f.subject →
        c.object.text ≠ s.space ++ f.subject)
    ⟨fun h => ⟨h.1, h.2⟩, fun h => ⟨h.classes, h.names⟩⟩

/-- The shape of a subject with a class is named after the class. -/
theorem stem_subject {c : ClassFact} (hc : c ∈ s.classFacts) :
    s.stem c.subject = c.object.text := by
  have hsome : (s.classFacts.find? (·.subject = c.subject)).isSome :=
    List.find?_isSome.2 ⟨c, hc, decide_eq_true rfl⟩
  obtain ⟨d, hd⟩ := Option.isSome_iff_exists.1 hsome
  have hdc : d = c := eq_of_subject_eq (List.mem_of_find?_eq_some hd) hc
    (of_decide_eq_true (List.find?_some (p := fun e : ClassFact => e.subject = c.subject) hd))
  rw [stem, hd, hdc]
  rfl

/-- The shape of a subject without a class is named after the subject. -/
theorem stem_of_not_hasSubject {subject : String} (h : ¬s.HasSubject subject) :
    s.stem subject = s.space ++ subject := by
  have hnone : s.classFacts.find? (·.subject = subject) = none :=
    List.find?_eq_none.2 fun c hc heq => h ⟨c, hc, of_decide_eq_true heq⟩
  rw [stem, hnone]
  rfl

/-- **Names.** The name of a valid shape is its stem with `Shape` behind it. -/
theorem shapeIri?_eq_stem (hvalid : s.ValidShapes) {f : Fact}
    (hf : f ∈ s.shapeFacts) : s.shapeIri? f.subject = some ⟨s.stem f.subject ++ "Shape"⟩ := by
  by_cases h : s.HasSubject f.subject
  · obtain ⟨c, hc, hsubject⟩ := h
    have hshapely : s.Shapely := by
      intro d hd
      have hmem : .ofClass d ∈ s.shapeFacts := mem_shapeFacts_iff.2 ⟨mem_classFacts_iff.1 hd, rfl⟩
      have hdvalid := hvalid _ hmem
      rwa [Fact.subject, stem_subject hd] at hdvalid
    rw [← hsubject, stem_subject hc]
    exact shapeIri?_subject hshapely hc
  · have hnone : s.classFacts.filter (·.subject = f.subject) = [] :=
      List.filter_eq_nil_iff.2 fun c hc heq => h ⟨c, hc, of_decide_eq_true heq⟩
    have hfvalid := hvalid f hf
    rw [stem_of_not_hasSubject h] at hfvalid ⊢
    rw [shapeIri?, hnone]
    exact if_pos hfvalid

/-! ## Shared names -/

/-- The subjects of the facts that shapes are made of. -/
def subjects (s : Statements) : Finset String := (s.shapeFacts.map Fact.subject).toFinset

/-- The subjects are those that there are facts about. -/
theorem mem_subjects_iff {subject : String} :
    subject ∈ s.subjects ↔ ∃ f ∈ s.shapeFacts, f.subject = subject := by
  rw [subjects, List.mem_toFinset, List.mem_map]

/-- A subject with a class is one of them. -/
private theorem subject_mem_subjects {c : ClassFact} (hc : c ∈ s.classFacts) :
    c.subject ∈ s.subjects :=
  mem_subjects_iff.2 ⟨.ofClass c, mem_shapeFacts_iff.2 ⟨mem_classFacts_iff.1 hc, rfl⟩, rfl⟩

/-- **Two cases.** Subjects have one stem just if they stand for one class, or if one of them has
the IRI of the other one's class. -/
theorem unmixed_iff_injOn_stem :
    s.Unmixed ↔ Set.InjOn s.stem s.subjects := by
  constructor
  · intro h a ha b hb heq
    obtain ⟨f, hf, rfl⟩ := mem_subjects_iff.1 ha
    obtain ⟨g, hg, rfl⟩ := mem_subjects_iff.1 hb
    by_cases hfc : s.HasSubject f.subject <;> by_cases hgc : s.HasSubject g.subject
    · obtain ⟨c, hc, hcf⟩ := hfc
      obtain ⟨d, hd, hdg⟩ := hgc
      rw [← hcf, ← hdg, stem_subject hc, stem_subject hd] at heq
      rw [← hcf, ← hdg]
      exact h.classes c hc d hd (congrArg Iri.mk heq)
    · obtain ⟨c, hc, hcf⟩ := hfc
      rw [← hcf, stem_subject hc, stem_of_not_hasSubject hgc] at heq
      exact absurd heq (h.names c hc g hg hgc)
    · obtain ⟨d, hd, hdg⟩ := hgc
      rw [← hdg, stem_subject hd, stem_of_not_hasSubject hfc] at heq
      exact absurd heq.symm (h.names d hd f hf hfc)
    · rw [stem_of_not_hasSubject hfc, stem_of_not_hasSubject hgc] at heq
      exact (String.append_right_inj s.space).1 heq
  · intro h
    constructor
    · intro c hc d hd heq
      refine h (subject_mem_subjects hc) (subject_mem_subjects hd) ?_
      rw [stem_subject hc, stem_subject hd, heq]
    · intro c hc f hf hfc heq
      have hsubject : c.subject = f.subject := by
        refine h (subject_mem_subjects hc) (mem_subjects_iff.2 ⟨f, hf, rfl⟩) ?_
        rw [stem_subject hc, stem_of_not_hasSubject hfc, heq]
      exact hfc ⟨c, hc, hsubject⟩

/-- The node shape of a subject. -/
def nodeOfSubject (s : Statements) (subject : String) : Subject :=
  .iri ⟨s.stem subject ++ "Shape"⟩

/-- Subjects have one node shape just if they have one stem. -/
private theorem nodeOfSubject_eq_iff {a b : String} :
    s.nodeOfSubject a = s.nodeOfSubject b ↔ s.stem a = s.stem b := by
  rw [nodeOfSubject, nodeOfSubject, Subject.iri.injEq, Iri.mk.injEq, String.append_left_inj]

/-- The node shapes are those of the subjects. -/
private theorem toFinset_nodesOf_toShapes (hvalid : s.ValidShapes) :
    (NodeShape.nodesOf s.toShapes).toFinset = s.subjects.image s.nodeOfSubject := by
  ext node
  rw [List.mem_toFinset, NodeShape.nodesOf, Graph.mem_subjects_iff, nodeShape_mem_toShapes_iff,
    Finset.mem_image]
  constructor
  · rintro ⟨p, hp, rfl⟩
    obtain ⟨hfact, hshape⟩ := of_mem_placedFrom hp
    rw [shapeIri?_eq_stem hvalid hfact] at hshape
    exact ⟨_, mem_subjects_iff.2 ⟨_, hfact, rfl⟩, congrArg Subject.iri (Option.some.inj hshape)⟩
  · rintro ⟨subject, hsubject, rfl⟩
    obtain ⟨f, hf, rfl⟩ := mem_subjects_iff.1 hsubject
    obtain ⟨p, hp, -, hshape⟩ :=
      exists_mem_placedFrom 0 hf (shapeIri?_eq_stem hvalid hf)
    exact ⟨p, hp, by rw [hshape]; rfl⟩

/-- **One node shape for each subject.** Let statements be built by insertions, and let shapes have
valid names. There are as many node shapes as subjects just if no two subjects have one name for
their shapes, and just then facts about two subjects never come under one node shape.

**Proof sketch.** The node shapes are the images of the subjects under the map from a subject to
its shape, and an image is as large as the set just if the map is injective on it. -/
theorem nodeShapes_ofList (name space : String) (facts : List Fact)
    (hvalid : (ofList name space facts).ValidShapes) :
    ((NodeShape.nodesOf (ofList name space facts).toShapes).length =
        ((ofList name space facts).shapeFacts.map Fact.subject).dedup.length ↔
      (ofList name space facts).Unmixed) ∧
    ((∀ f ∈ (ofList name space facts).shapeFacts, ∀ g ∈ (ofList name space facts).shapeFacts,
        (ofList name space facts).shapeIri? f.subject =
          (ofList name space facts).shapeIri? g.subject → f.subject = g.subject) ↔
      (ofList name space facts).Unmixed) := by
  rw [unmixed_iff_injOn_stem]
  constructor
  · have hnodup : (NodeShape.nodesOf (ofList name space facts).toShapes).Nodup :=
      Graph.nodup_subjects _ _ _
    rw [← List.card_toFinset, ← List.toFinset_card_of_nodup hnodup,
      toFinset_nodesOf_toShapes hvalid]
    refine Finset.card_image_iff.trans ?_
    simp only [Set.InjOn, nodeOfSubject_eq_iff]
  · have hshape : ∀ f ∈ (ofList name space facts).shapeFacts,
        ∀ g ∈ (ofList name space facts).shapeFacts,
          ((ofList name space facts).shapeIri? f.subject =
            (ofList name space facts).shapeIri? g.subject ↔
          (ofList name space facts).stem f.subject = (ofList name space facts).stem g.subject) := by
      intro f hf g hg
      rw [shapeIri?_eq_stem hvalid hf, shapeIri?_eq_stem hvalid hg, Option.some.injEq,
        Iri.mk.injEq, String.append_left_inj]
    constructor
    · intro h a ha b hb heq
      obtain ⟨f, hf, rfl⟩ := mem_subjects_iff.1 ha
      obtain ⟨g, hg, rfl⟩ := mem_subjects_iff.1 hb
      exact h f hf g hg ((hshape f hf g hg).2 heq)
    · intro h f hf g hg heq
      exact h (mem_subjects_iff.2 ⟨f, hf, rfl⟩) (mem_subjects_iff.2 ⟨g, hg, rfl⟩)
        ((hshape f hf g hg).1 heq)

/-- The facts about people have a node shape for each subject. -/
theorem nodeShapes_ofList_peopleFacts :
    (ofList "people" "http://example.org/" peopleFacts).ValidShapes ∧
      (NodeShape.nodesOf (ofList "people" "http://example.org/" peopleFacts).toShapes).length =
        ((ofList "people" "http://example.org/" peopleFacts).shapeFacts.map
          Fact.subject).dedup.length := by
  have hvalid : (ofList "people" "http://example.org/" peopleFacts).ValidShapes := by
    decide +kernel
  have hunmixed : (ofList "people" "http://example.org/" peopleFacts).Unmixed := by decide +kernel
  exact ⟨hvalid, (nodeShapes_ofList "people" "http://example.org/" peopleFacts hvalid).1.2 hunmixed⟩

/-- A subject stands for the class that another one, which has a property and no class, has the IRI
of. -/
def humanFacts : List Fact :=
  [.ofClass ⟨"Human", ⟨"http://schema.org/Person"⟩⟩,
    .ofProperty ⟨"Person", ⟨⟨"http://schema.org/name"⟩, xsd "string", .any⟩, none⟩]

/-- The property comes under the shape of the class, which is the only node shape. -/
theorem nodeShapes_humanFacts :
    (ofList "statements" "http://schema.org/" humanFacts).ValidShapes ∧
      ((ofList "statements" "http://schema.org/" humanFacts).shapeFacts.map
        Fact.subject).dedup.length = 2 ∧
      NodeShape.nodesOf (ofList "statements" "http://schema.org/" humanFacts).toShapes =
        [.iri ⟨"http://schema.org/PersonShape"⟩] := by
  decide +kernel

end Statements

end ShapeSchema
