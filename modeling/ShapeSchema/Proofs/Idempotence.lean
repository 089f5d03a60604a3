import ShapeSchema.Proofs.Lowering
import ShapeSchema.Proofs.RoundTrip
import ShapeSchema.Transformation

/-!
# Running a run's own shapes

The shapes that a run writes can be run again, in whatever order they are listed, and give the same
schema: the same nodes, and the same edges as often.

The statements of a run are distinct and closed, whatever was read, so what they say comes back from
their shapes. It remains to see that the second run does not stop: a schema with a node or an edge
comes from statements with a class, and a class has a shape.

## Main results

* `ShapeSchema.Transformation.run_eq_ok_iff` — when a run gives its results.
* `ShapeSchema.Transformation.run_run` — runs of a run's shapes.
-/

namespace ShapeSchema

open Rdf (Graph)

/-! ## Schemas that are not empty -/

namespace Statements

variable {s : Statements}

/-- Statements whose schema is not empty have a class. -/
theorem exists_class_of_schema (options : SchemaOptions)
    (h : (Schema.ofStatements options s).isEmpty = false) : ∃ c, c ∈ s.classFacts := by
  by_contra hnone
  rw [not_exists, ← List.eq_nil_iff_forall_not_mem] at hnone
  have hkept : s.keptFacts = [] := by
    rw [keptFacts, List.filter_eq_nil_iff]
    intro f _
    simp [Kept, HasSubject, hnone]
  have hnodes := Schema.nodes_ofStatements options s
  have hedges := Schema.edges_ofStatements options s
  rw [hnone, List.map_nil] at hnodes
  rw [hkept, List.map_nil, List.map_eq_nil_iff] at hedges
  rw [Schema.isEmpty, hnodes, hedges] at h
  cases h

/-- A class makes triples. -/
private theorem toShapes_ne_empty (hc : s.Closed) (hshapes : s.Shapely) {c : ClassFact}
    (h : c ∈ s.classFacts) : s.toShapes.isEmpty = false := by
  have hfact : .ofClass c ∈ s.shapeFacts := mem_shapeFacts_iff.2 ⟨mem_classFacts_iff.1 h, rfl⟩
  obtain ⟨p, hp, -⟩ := exists_placed hc hshapes hfact
  have htriple := Graph.mem_toSet.1 (nodeShape_mem_toShapes_iff.2 ⟨p, hp, rfl⟩)
  rw [Graph.isEmpty, List.isEmpty_eq_false_iff]
  exact List.ne_nil_of_mem htriple

end Statements

/-! ## Runs -/

namespace Transformation

variable {options : Options} {g : Graph}

/-- A run gives its results if none of them is empty. -/
theorem run_eq_ok_iff {input : String} {out : Result} :
    run options input g = .ok out ↔ out = results options g ∧ out.statements.isEmpty = false ∧
      out.schema.isEmpty = false ∧ out.shapes.isEmpty = false := by
  have hstage : ∀ r : Result, r.emptyStage? = none ↔ r.statements.isEmpty = false ∧
      r.schema.isEmpty = false ∧ r.shapes.isEmpty = false := by
    intro r
    unfold Result.emptyStage?
    cases r.statements.isEmpty <;> cases r.schema.isEmpty <;> cases r.shapes.isEmpty <;> simp
  rw [run, ← hstage]
  constructor
  · intro h
    split at h
    · cases h
    · next hnone =>
      cases h
      exact ⟨rfl, hnone⟩
  · rintro ⟨rfl, hnone⟩
    simp only [hnone]

/-- **Idempotence.** Take a run that gives something. If every class has a valid IRI for its shape
and no relationship has two properties of one name, then a run of its shapes in any order also gives
something, and its schema is the same up to order and the identifiers of edges.

**Proof sketch.** What the statements say is read back from their shapes, so both schemas are made
of statements that say the same. The second schema is thus as little empty as the first, and then
neither are the statements nor the shapes that belong to it. -/
theorem run_run (options : Options) (input input' : String) (g : Graph) (out : Result)
    (hrun : run options input g = .ok out) (hshapes : out.statements.Shapely)
    (hnames : ∀ f ∈ out.statements.relationFacts, (f.properties.map Property.name).Nodup)
    (g' : Graph) (hg : g'.triples.Perm out.shapes.triples) :
    ∃ again, run options input' g' = .ok again ∧ again.schema.Same out.schema := by
  obtain ⟨rfl, -, hschema, -⟩ := run_eq_ok_iff.1 hrun
  have hc := Statements.closed_ofShapes options.reading g
  have htc := Statements.closed_ofShapes options.reading g'
  have hcontent : (Statements.ofShapes options.reading g').content.Perm
      (Statements.ofShapes options.reading g).content :=
    Statements.content_ofShapes_perm hc hshapes options.reading hg
  have hsame : (results options g').schema.Same (results options g).schema := by
    refine (Schema.same_ofStatements options.schema hcontent.symm ?_).symm
    exact fun f hf => hnames f (List.mem_of_mem_filter hf)
  have htshapes : (Statements.ofShapes options.reading g').Shapely := fun c hc =>
    hshapes c ((Statements.classFacts_perm hcontent).mem_iff.1 hc)
  have hnonempty : (results options g').schema.isEmpty = false := by
    rw [hsame.isEmpty_eq]
    exact hschema
  obtain ⟨c, hcmem⟩ := Statements.exists_class_of_schema options.schema hnonempty
  refine ⟨results options g', run_eq_ok_iff.2 ⟨rfl, ?_, hnonempty, ?_⟩, hsame⟩
  · show (Statements.ofShapes options.reading g').toList.isEmpty = false
    rw [List.isEmpty_eq_false_iff]
    exact List.ne_nil_of_mem (Statements.mem_classFacts_iff.1 hcmem)
  · exact Statements.toShapes_ne_empty htc htshapes hcmem

/-- The shapes of some people, listed backwards, give the same schema again. -/
theorem run_run_people :
    run {} "people" Statements.people = .ok (results {} Statements.people) ∧
      (results {} Statements.people).statements.Shapely ∧
      (∀ f ∈ (results {} Statements.people).statements.relationFacts,
        (f.properties.map Property.name).Nodup) ∧
      ∃ again, run {} "shapes" (results {} Statements.people).shapes.backwards = .ok again ∧
        again.schema.Same (results {} Statements.people).schema := by
  have hrun : run {} "people" Statements.people = .ok (results {} Statements.people) :=
    run_eq_ok_iff.2 ⟨rfl, by decide +kernel⟩
  have hshapes : (results {} Statements.people).statements.Shapely := by decide +kernel
  have hnames : ∀ f ∈ (results {} Statements.people).statements.relationFacts,
      (f.properties.map Property.name).Nodup := by decide +kernel
  exact ⟨hrun, hshapes, hnames,
    run_run {} "people" "shapes" Statements.people _ hrun hshapes hnames _
    (Graph.backwards_perm _)⟩

end Transformation

end ShapeSchema
