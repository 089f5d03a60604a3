import ShapeSchema.Rdf.Term

/-!
# RDF graphs

A graph is a set of triples. It is listed in some order, and what is read from it is read in that
order; two graphs with the same triples in different orders mean the same.

## Main definitions

* `ShapeSchema.Rdf.Graph` — a list of triples without repetitions.
* `ShapeSchema.Rdf.Graph.insert`, `ShapeSchema.Rdf.Graph.ofList` — building graphs.
* `ShapeSchema.Rdf.Graph.objects`, `ShapeSchema.Rdf.Graph.subjects` — looking triples up.
-/

namespace ShapeSchema.Rdf

/-- A set of triples, listed in some order. -/
structure Graph where
  /-- The triples. -/
  triples : List Triple
  /-- No triple is listed twice. -/
  nodup : triples.Nodup

namespace Graph

/-- The graph without triples. -/
def empty : Graph := ⟨[], .nil⟩

instance : EmptyCollection Graph := ⟨empty⟩

instance : Inhabited Graph := ⟨empty⟩

/-- The graph with one more triple, unless it is there already. -/
def insert (g : Graph) (t : Triple) : Graph :=
  if h : t ∈ g.triples then g
  else ⟨g.triples ++ [t], List.nodup_append.2 ⟨g.nodup, by simp, by
    intro a ha b hb hab
    simp only [List.mem_singleton] at hb
    exact h (hb ▸ hab ▸ ha)⟩⟩

/-- The graph of the given triples. -/
def ofList (triples : List Triple) : Graph := triples.foldl insert empty

/-- The number of triples. -/
def size (g : Graph) : Nat := g.triples.length

/-- Whether there are no triples. -/
def isEmpty (g : Graph) : Bool := g.triples.isEmpty

/-- The values of a property of a subject. -/
def objects (g : Graph) (subject : Subject) (predicate : Iri) : List Term :=
  g.triples.filterMap fun t =>
    if t.subject = subject ∧ t.predicate = predicate then some t.object else none

/-- The first value of a property of a subject. -/
def object? (g : Graph) (subject : Subject) (predicate : Iri) : Option Term :=
  (g.objects subject predicate).head?

/-- The subjects that have a value of a property. -/
def subjects (g : Graph) (predicate : Iri) (object : Term) : List Subject :=
  g.triples.filterMap fun t =>
    if t.predicate = predicate ∧ t.object = object then some t.subject else none

/-- **Insertion.** The graph has the new triple and its former ones. -/
theorem mem_insert {g : Graph} {t u : Triple} :
    u ∈ (g.insert t).triples ↔ u ∈ g.triples ∨ u = t := by
  unfold insert
  split
  · next h => exact ⟨.inl, fun hu => hu.elim id (· ▸ h)⟩
  · simp

end Graph

end ShapeSchema.Rdf
