import ShapeSchema.Proofs.Closure
import ShapeSchema.Proofs.Idempotence

/-!
# When runs fail

A run fails at a stage that gives nothing. Reading shapes gives nothing just if no node shape has a
target class that is an IRI. Every class becomes a node, so a schema is never empty when there are
statements. Writing shapes gives nothing just if no subject has a shape, and for each of them two
names are tried: that of its class, and one in the namespace.

Nothing else makes a run fail: relationships that lead nowhere, shapes that say nothing and facts
that replace each other do not.

## Main definitions

* `ShapeSchema.Statements.Nameless` — both names for the shape of a subject are invalid.

## Main results

* `ShapeSchema.Statements.isEmpty_ofShapes_iff`, `ShapeSchema.Schema.isEmpty_ofStatements_iff`,
  `ShapeSchema.Statements.isEmpty_toShapes_iff` — when a stage gives nothing.
* `ShapeSchema.Transformation.run_verdict` — how a run ends.
-/

namespace ShapeSchema

open Rdf (Graph)

namespace Statements

/-! ## Reading shapes -/

section Reading

variable {options : ReadingOptions} {g : Graph}

/-- A graph has a node shape with a target class just if one is described in it. -/
private theorem exists_mem_ofGraph_iff :
    (∃ n, n ∈ NodeShape.ofGraph g) ↔ ∃ node target, Describes g.toSet node target := by
  constructor
  · rintro ⟨n, hn⟩
    exact ⟨n.node, n.target, NodeShape.describes_of_mem hn⟩
  · rintro ⟨node, target, htype, htarget⟩
    -- the shape may have several targets, of which the first one is read
    obtain ⟨first, hfirst⟩ : ∃ first, (NodeShape.targetsOf g node).head? = some first := by
      rw [← Option.isSome_iff_exists, List.isSome_head?]
      exact List.ne_nil_of_mem (NodeShape.mem_targetsOf_iff.2 htarget)
    refine ⟨⟨node, first⟩, List.mem_filterMap.2 ⟨node, Graph.mem_subjects_iff.2 htype, ?_⟩⟩
    rw [hfirst, Option.map_some]

/-- Statements that were read are empty just if there is no class among them. -/
theorem isEmpty_iff_classFacts_eq_nil (options : ReadingOptions) (g : Graph) :
    (ofShapes options g).isEmpty = true ↔ (ofShapes options g).classFacts = [] := by
  have hs : ∀ f ∈ (ofShapes options g).toList, (ofShapes options g).HasSubject f.subject := by
    intro f hf
    cases hcopy : f.isCopy with
    | true => exact hasSubject_of_mem_copies (mem_copies_of_isCopy hf hcopy)
    | false => exact (closed_ofShapes options g).hasSubject (mem_shapeFacts_iff.2 ⟨hf, hcopy⟩)
  rw [isEmpty, List.isEmpty_iff]
  constructor
  · intro h
    rw [classFacts, h, List.filterMap_nil]
  · intro h
    rw [List.eq_nil_iff_forall_not_mem]
    intro f hf
    obtain ⟨c, hc, -⟩ := hs f hf
    rw [h] at hc
    exact List.not_mem_nil hc

/-- **Reading** gives nothing just if no node shape with a target class is described. -/
theorem isEmpty_ofShapes_iff :
    (ofShapes options g).isEmpty = true ↔ ∀ node target, ¬ Describes g.toSet node target := by
  have hclass : (∃ c, c ∈ (ofShapes options g).classFacts) ↔ ∃ n, n ∈ NodeShape.ofGraph g := by
    constructor
    · rintro ⟨c, hc⟩
      obtain ⟨n, hn, -⟩ := hasSubject_ofShapes_iff.1 ⟨c, hc, rfl⟩
      exact ⟨n, hn⟩
    · rintro ⟨n, hn⟩
      obtain ⟨c, hc, -⟩ : (ofShapes options g).HasSubject n.target.localName :=
        hasSubject_of_mem_ofGraph hn
      exact ⟨c, hc⟩
  rw [isEmpty_iff_classFacts_eq_nil, List.eq_nil_iff_forall_not_mem, ← not_exists, hclass,
    exists_mem_ofGraph_iff]
  simp only [not_exists]

end Reading

/-! ## Writing shapes -/

variable {s : Statements}

/-- Neither of the two names for the shape of a subject is a valid IRI: the one that is made from
its class, and the one that is made from the subject in the namespace. -/
def Nameless (s : Statements) (c : ClassFact) : Prop :=
  Iri.ofText? (c.object.text ++ "Shape") = none ∧
    Iri.ofText? (s.space ++ c.subject ++ "Shape") = none

instance (s : Statements) (c : ClassFact) : Decidable (s.Nameless c) :=
  inferInstanceAs (Decidable (_ ∧ _))

/-- A subject has no shape just if both names are invalid. -/
theorem shapeIri?_eq_none_iff {c : ClassFact} (hc : c ∈ s.classFacts) :
    s.shapeIri? c.subject = none ↔ s.Nameless c := by
  have hmem : ∀ d, d ∈ s.classFacts.filter (·.subject = c.subject) ↔ d = c := by
    intro d
    rw [List.mem_filter, decide_eq_true_eq]
    constructor
    · exact fun ⟨hd, hdc⟩ => eq_of_subject_eq hd hc hdc
    · rintro rfl
      exact ⟨hc, rfl⟩
  have hclass : ((s.classFacts.filter (·.subject = c.subject)).filterMap ClassFact.shapeIri?) = [] ↔
      c.shapeIri? = none := by
    simp only [List.filterMap_eq_nil_iff, hmem, forall_eq]
  rw [shapeIri?, Option.orElse_eq_or, Option.or_eq_none_iff, List.getLast?_eq_none_iff, hclass]
  rfl

/-- **Writing** closed statements gives nothing just if all their subjects are without names. -/
theorem isEmpty_toShapes_iff (hc : s.Closed) :
    s.toShapes.isEmpty = true ↔ ∀ c ∈ s.classFacts, s.Nameless c := by
  rw [Graph.isEmpty, List.isEmpty_iff, List.eq_nil_iff_forall_not_mem]
  constructor
  · intro h c hcmem
    rw [← shapeIri?_eq_none_iff hcmem]
    by_contra hshape
    obtain ⟨shape, hshape⟩ := Option.ne_none_iff_exists'.1 hshape
    obtain ⟨p, hp, -, -⟩ := exists_mem_placedFrom (f := .ofClass c) 0
      (mem_shapeFacts_iff.2 ⟨mem_classFacts_iff.1 hcmem, rfl⟩) hshape
    exact h _ (Graph.mem_toSet.1 (nodeShape_mem_toShapes_iff.2 ⟨p, hp, rfl⟩))
  · intro h t ht
    have htriples : t ∈ s.triplesOf 0 s.shapeFacts :=
      Graph.mem_toSet_ofList.1 (Graph.mem_toSet.2 ht)
    rw [triplesOf_eq_flatMap, List.mem_flatMap] at htriples
    obtain ⟨p, hp, -⟩ := htriples
    obtain ⟨hfact, hshape⟩ := of_mem_placedFrom hp
    obtain ⟨c, hcmem, hsubject⟩ := hc.hasSubject hfact
    rw [← hsubject, (shapeIri?_eq_none_iff hcmem).2 (h c hcmem)] at hshape
    cases hshape

end Statements

/-! ## Making schemas -/

/-- **Schemas** are empty just if there is no class. -/
theorem Schema.isEmpty_ofStatements_iff (options : SchemaOptions) {s : Statements} :
    (ofStatements options s).isEmpty = true ↔ s.classFacts = [] := by
  constructor
  · intro h
    have hnodes : (ofStatements options s).nodes.entries = [] :=
      List.isEmpty_iff.1 (Bool.and_eq_true_iff.1 h).1
    rw [nodes_ofStatements] at hnodes
    exact List.map_eq_nil_iff.1 hnodes
  · intro h
    by_contra hschema
    obtain ⟨c, hc⟩ := Statements.exists_class_of_schema options (Bool.eq_false_iff.2 hschema)
    rw [h] at hc
    exact List.not_mem_nil hc

namespace Transformation

variable {options : Options} {g : Graph}

/-! ## Runs -/

/-- A run that reads statements makes a schema of them. -/
private theorem emptyStage?_results (options : Options) (g : Graph) :
    (results options g).emptyStage? =
      if (results options g).statements.isEmpty then some .extract
      else if (results options g).shapes.isEmpty then some .lift
      else none := by
  have hschema : (results options g).schema.isEmpty = (results options g).statements.isEmpty := by
    rw [Bool.eq_iff_iff]
    exact (Schema.isEmpty_ofStatements_iff options.schema).trans
      (Statements.isEmpty_iff_classFacts_eq_nil options.reading g).symm
  rw [Result.emptyStage?, hschema]
  split <;> rfl

/-- **How a run ends.** Run any graph in any way.

* The run fails when shapes are read just if no node shape has a target class that is an IRI.
* It fails when shapes are written just if there is such a node shape and every class of the
  statements is without a name for its shape.
* It gives its results just if there is such a node shape and some class has a name.
* It never fails when the schema is made. -/
theorem run_verdict (options : Options) (input : String) (g : Graph) :
    let s := Statements.ofShapes options.reading g
    (run options input g = .error ⟨input, .extract⟩ ↔
        ∀ node target, ¬ Describes g.toSet node target) ∧
      (run options input g = .error ⟨input, .lift⟩ ↔
        (∃ node target, Describes g.toSet node target) ∧ ∀ c ∈ s.classFacts, s.Nameless c) ∧
      (run options input g = .ok (results options g) ↔
        (∃ node target, Describes g.toSet node target) ∧ ∃ c ∈ s.classFacts, ¬ s.Nameless c) ∧
      ∀ name, run options input g ≠ .error ⟨name, .lower⟩ := by
  intro s
  have hc := Statements.closed_ofShapes options.reading g
  have hread : (results options g).statements.isEmpty = true ↔
      ∀ node target, ¬ Describes g.toSet node target := Statements.isEmpty_ofShapes_iff
  have hwritten : (results options g).shapes.isEmpty = true ↔ ∀ c ∈ s.classFacts, s.Nameless c :=
    Statements.isEmpty_toShapes_iff hc
  have hexists : (∃ node target, Describes g.toSet node target) ↔
      ¬ ∀ node target, ¬ Describes g.toSet node target := by
    simp only [not_forall, not_not]
  have hnamed : (∃ c ∈ s.classFacts, ¬ s.Nameless c) ↔ ¬ ∀ c ∈ s.classFacts, s.Nameless c := by
    simp only [not_forall, exists_prop]
  rw [hexists, hnamed, ← hread, ← hwritten, run, emptyStage?_results]
  cases (results options g).statements.isEmpty <;>
    cases (results options g).shapes.isEmpty <;> simp

end Transformation

end ShapeSchema
