import ShapeSchema.Proofs.Count
import ShapeSchema.Proofs.Graph

/-!
# Bounds of edges and of shapes

A cardinality is kept as text in two places, which leave out different things. An edge has its
bounds among its other properties: the lower one is always written, and an upper one from before
has to go if there is none any more. A shape has them as values in a graph: a lower bound of zero is
left out, and one that is missing is read as zero. From both places the cardinality is read back,
whatever else stands there, for bounds up to the largest count.

## Main definitions

* `ShapeSchema.Rdf.Triple.IsBoundOf` — the triples that give a bound of a shape.

## Main results

* `ShapeSchema.Cardinality.cardinalityAt_eq_of_mem_iff` — only the triples with bounds matter.
* `ShapeSchema.Cardinality.bounds_are_read` — cardinalities are read back from edges and shapes.
-/

namespace ShapeSchema

open Rdf (BlankNode Graph Subject Term Triple)
open Schema (Edge)

/-- The triple gives a lower or an upper bound of the shape. -/
def Rdf.Triple.IsBoundOf (t : Triple) (shape : Subject) : Prop :=
  t.subject = shape ∧ (t.predicate = Vocabulary.minCount ∨ t.predicate = Vocabulary.maxCount)

instance (t : Triple) (shape : Subject) : Decidable (t.IsBoundOf shape) :=
  inferInstanceAs (Decidable (_ ∧ _))

namespace Cardinality

variable {c : Cardinality} {shape : Subject} {value : Term}

/-! ## The triples of the bounds -/

/-- The lower bound is written unless it is zero. -/
theorem minCount_mem_triples_iff :
    ⟨shape, Vocabulary.minCount, value⟩ ∈ c.triples shape ↔
      (if 0 < c.min then some (countLiteral c.min) else none) = some value := by
  have hbounds : Vocabulary.minCount ≠ Vocabulary.maxCount := by decide
  by_cases hmin : 0 < c.min <;> simp [triples, hmin, hbounds.symm, eq_comm]

/-- The upper bound is written if there is one. -/
theorem maxCount_mem_triples_iff :
    ⟨shape, Vocabulary.maxCount, value⟩ ∈ c.triples shape ↔
      c.max.map countLiteral = some value := by
  have hbounds : Vocabulary.maxCount ≠ Vocabulary.minCount := by decide
  by_cases hmin : 0 < c.min <;> simp [triples, hmin, hbounds]

/-- **Shapes.** A cardinality is read from every graph in which its bounds are the only ones that
the shape has. -/
theorem cardinalityAt_eq_of_mem_iff {g : Graph}
    (hg : ∀ t : Triple, t.IsBoundOf shape → (t ∈ g.toSet ↔ t ∈ c.triples shape)) :
    cardinalityAt g shape = c := by
  have hmin : g.object? shape Vocabulary.minCount =
      if 0 < c.min then some (countLiteral c.min) else none :=
    Graph.object?_eq_of_mem_iff fun value =>
      (hg ⟨shape, _, value⟩ ⟨rfl, .inl rfl⟩).trans minCount_mem_triples_iff
  have hmax : g.object? shape Vocabulary.maxCount = c.max.map countLiteral :=
    Graph.object?_eq_of_mem_iff fun value =>
      (hg ⟨shape, _, value⟩ ⟨rfl, .inr rfl⟩).trans maxCount_mem_triples_iff
  have hread : countOf? ∘ countLiteral = some := funext countOf?_countLiteral
  -- a lower bound that was left out is what a missing one stands for
  have hlower : ((if 0 < c.min then some (countLiteral c.min) else none).bind countOf?).getD 0 =
      c.min := by
    by_cases hpos : 0 < c.min
    · rw [if_pos hpos, Option.bind_some, countOf?_countLiteral, Option.getD_some]
    · have hzero : c.min = 0 := by simpa using hpos
      rw [if_neg hpos, hzero]
      rfl
  rw [cardinalityAt, hmin, hmax, hlower, Option.bind_map, hread, Option.bind_fun_some]

/-! ## Both places -/

/-- **Bounds.** Every cardinality is read back from both places where it is written as text.

* From an edge to which it is given, whatever properties the edge had before. If it has no upper
  bound, then an earlier one is gone, and properties other than bounds stay as they were.
* From a shape whose bounds are written into a graph, if nothing else that stands in the graph or is
  added later gives bounds of this shape. The triples may be listed in any order.

**Proof sketch.** Digits are read back as the count that they were made of. The lookups of an edge
are those of `Schema.Edge.get?_setCardinality`; a graph has just the written bounds of the shape,
and each of them is the only value of its kind. -/
theorem bounds_are_read (c : Cardinality) :
    (∀ e : Edge,
      (e.setCardinality c).cardinality? = some c ∧
      (c.max = none → (e.setCardinality c).properties.get? Edge.maxKey = none) ∧
      ∀ key, key ≠ Edge.minKey → key ≠ Edge.maxKey →
        (e.setCardinality c).properties.get? key = e.properties.get? key) ∧
    ∀ (g : Graph) (shape : Subject) (others : List Triple),
      (∀ t ∈ g.triples ++ others, ¬ t.IsBoundOf shape) →
      ∀ h : Graph, h.triples.Perm ((c.triples shape ++ others).foldl Graph.insert g).triples →
        cardinalityAt h shape = c := by
  constructor
  · intro e
    refine ⟨e.cardinality?_setCardinality c, fun hmax => ?_, fun key hmin hmax => ?_⟩
    · have hkeys : Edge.maxKey ≠ Edge.minKey := by decide
      rw [Edge.get?_setCardinality, if_neg hkeys, if_pos rfl, hmax, Option.map_none]
    · rw [Edge.get?_setCardinality, if_neg hmin, if_neg hmax]
  · intro g shape others hothers h hperm
    refine cardinalityAt_eq_of_mem_iff fun t ht => ?_
    have hnew : t ∉ g.triples ∧ t ∉ others :=
      not_or.1 fun hmem => hothers t (List.mem_append.2 hmem) ht
    rw [Graph.mem_toSet, hperm.mem_iff, Graph.mem_foldl_insert, List.mem_append]
    simp only [hnew, false_or, or_false]

/-- An edge with an upper bound and a note. -/
def notedEdge : Edge where
  id := "Person_knows_Person"
  source := "Person"
  target := "Person"
  type := "KNOWS"
  properties := .ofList [("maxCount", "7"), ("note", "at most a week")]

/-- The largest lower bound is given to an edge that had an upper one, and it is written between the
path and the class of a shape, while another shape has bounds too. -/
theorem bounds_are_read_notedEdge :
    let c : Cardinality := ⟨18446744073709551615, none⟩
    let shape : Subject := .blank (.fresh 1)
    let g : Graph := .ofList [⟨shape, Vocabulary.path, .iri ⟨"http://example.org/knows"⟩⟩,
      ⟨.blank (.fresh 0), Vocabulary.maxCount, countLiteral 1⟩]
    let others : List Triple := [⟨shape, Vocabulary.class, .iri ⟨"http://example.org/Person"⟩⟩]
    notedEdge.properties.get? Edge.maxKey = some "7" ∧
      (notedEdge.setCardinality c).cardinality? = some c ∧
      (notedEdge.setCardinality c).properties.get? Edge.maxKey = none ∧
      (notedEdge.setCardinality c).properties.get? "note" = some "at most a week" ∧
      (∀ t ∈ g.triples ++ others, ¬ t.IsBoundOf shape) ∧
      cardinalityAt ((c.triples shape ++ others).foldl Graph.insert g).backwards shape = c := by
  intro c shape g others
  obtain ⟨hedge, hgraph⟩ := bounds_are_read c
  obtain ⟨hread, hgone, hother⟩ := hedge notedEdge
  have hothers : ∀ t ∈ g.triples ++ others, ¬ t.IsBoundOf shape := by decide +kernel
  exact ⟨by decide +kernel, hread, hgone rfl, hother "note" (by decide) (by decide), hothers,
    hgraph g shape others hothers _ (Graph.backwards_perm _)⟩

end Cardinality

end ShapeSchema
