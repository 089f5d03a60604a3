import Mathlib.Algebra.Group.Nat.Defs
import ShapeSchema.Proofs.Lowering

/-!
# Relationships become edges

A schema takes in the relationships of its statements one after the other. For each of them whose
subject and object stand for classes there is one more edge, behind those that are there already;
the others change nothing.

The identifier of an edge is put together from the names of its ends and of the relationship, with
underscores between them, and different relationships may give one text: `A_b_c_D` belongs to `b_c`
of `A` as well as to `c` of `A_b`. Then a counter is put behind it, and a text with a counter may
again be the one of another relationship. The search for a free identifier ends nevertheless, before
its counter leaves 32 bits, and no edge ever takes the place of another one.

## Main definitions

* `ShapeSchema.Schema.afterRelations` — the schema when some relationships were taken in.
* `ShapeSchema.Schema.Edge.Represents` — the edge of a relationship.
* `ShapeSchema.Schema.SearchEnds` — where the search for an identifier ends.

## Main results

* `ShapeSchema.Schema.afterRelations_append` — what one relationship changes.
* `ShapeSchema.Schema.represents_edges` — edges and relationships correspond to each other.
-/

namespace ShapeSchema.Schema

/-- The schema of some statements when the given relationships were taken in. -/
def afterRelations (options : SchemaOptions) (s : Statements) (fs : List RelationFact) : Schema :=
  fs.foldl (addRelation options s) (nodesOfStatements s)

/-- An edge represents a relationship: it leads from its subject to its object, its type is made
from its name, and so is its identifier, behind which a counter may stand. -/
structure Edge.Represents (options : SchemaOptions) (e : Edge) (f : RelationFact) : Prop where
  /-- The source is the subject. -/
  source : e.source = f.subject
  /-- The target is the object. -/
  target : e.target = f.object
  /-- The type is made from the name. -/
  type : e.type = options.style.apply f.name
  /-- The identifier is made from all three; counters begin at two. -/
  id : e.id = f.subject ++ "_" ++ f.name ++ "_" ++ f.object ∨
    ∃ k ≥ 2, e.id = f.subject ++ "_" ++ f.name ++ "_" ++ f.object ++ "_" ++ k.repr

/-- The search for an identifier of a relationship ends at the candidate with a number: those before
it are taken and it is free. The counter behind it is greater by one, and has 32 bits. -/
structure SearchEnds (S : Schema) (f : RelationFact) (n : Nat) : Prop where
  /-- The candidates before it are taken. -/
  taken : ∀ m < n, (S.edge? (f.edgeId m)).isSome
  /-- It is free. -/
  free : S.edge? (f.edgeId n) = none
  /-- Its counter has 32 bits. -/
  fits : n + 1 < 2 ^ 32

variable {options : SchemaOptions} {s : Statements}

/-! ## One relationship -/

/-- The edge that is made of a relationship represents it. -/
theorem represents_of_givesEdge {f : RelationFact} {e : Edge} (h : GivesEdge options s f e) :
    e.Represents options f := by
  obtain ⟨n, rfl⟩ := h
  obtain ⟨hsource, htarget, hid⟩ := source_edge options s f (f.edgeId n)
  refine ⟨hsource, htarget, type_edge options s f _, ?_⟩
  rw [hid, RelationFact.edgeId]
  by_cases hn : n = 0
  · exact .inl (if_pos hn)
  · exact .inr ⟨n + 1, by omega, if_neg hn⟩

/-- Relationships make no nodes. -/
theorem hasNode_afterRelations {fs : List RelationFact} {subject : String} :
    (afterRelations options s fs).hasNode subject = true ↔ s.HasSubject subject := by
  rw [afterRelations, hasNode, (foldl_addRelation _ _ _ _).1]
  exact hasNode_nodesOfStatements

/-- **Step.** A relationship between subjects that stand for classes adds its edge; any other
relationship changes nothing. -/
theorem afterRelations_append (options : SchemaOptions) (s : Statements) (fs : List RelationFact)
    (f : RelationFact) :
    afterRelations options s (fs ++ [f]) =
      if s.Kept f then
        let S := afterRelations options s fs
        { S with edges := S.edges.insert (f.edge options s (S.freeId f)) }
      else afterRelations options s fs := by
  have hstep : afterRelations options s (fs ++ [f]) =
      (afterRelations options s fs).addRelation options s f := by
    rw [afterRelations, List.foldl_append]
    rfl
  rw [hstep, addRelation_eq]
  simp only [hasNode_afterRelations]
  rfl

/-! ## All relationships -/

/-- Every edge leads from node to node. -/
theorem hasNode_ends {e : Edge} (h : e ∈ (ofStatements options s).edges.entries) :
    (ofStatements options s).hasNode e.source = true ∧
      (ofStatements options s).hasNode e.target = true := by
  obtain ⟨f, hf, hbody⟩ := exists_body_eq h
  obtain ⟨hsource, htarget, -⟩ := source_edge options s f ""
  rw [← hbody] at hsource htarget
  obtain ⟨-, hsubject, hobject⟩ := Statements.of_mem_keptFacts hf
  have hnode : ∀ subject, (ofStatements options s).hasNode subject = true ↔
      s.HasSubject subject := fun _ => hasNode_afterRelations
  exact ⟨(hnode _).2 (hsource ▸ hsubject), (hnode _).2 (htarget ▸ hobject)⟩

/-- There are at most as many edges as relationships. -/
private theorem size_edges_afterRelations_le (fs : List RelationFact) :
    (afterRelations options s fs).edges.size ≤ fs.length := by
  obtain ⟨-, es, hedges, hes⟩ := foldl_addRelation options s (nodesOfStatements s) fs
  rw [edges_nodesOfStatements] at hedges
  rw [Registry.size, afterRelations, hedges]
  exact hes.length_eq ▸ List.length_filter_le _ _

/-- With so few relationships, the counter of a search stays in 32 bits. -/
private theorem searchEnds_freeNumber {S : Schema} (hsize : S.edges.size < 2 ^ 32 - 1)
    (f : RelationFact) :
    S.SearchEnds f (S.freeNumber f) := by
  obtain ⟨hle, hfree, htaken⟩ := freeNumber_least S f
  exact ⟨htaken, hfree, by omega⟩

/-- **Relationships and edges.** Take any statements with fewer than `2 ^ 32 - 2` relationships.
The edges of their schema represent the relationships between subjects that stand for classes, one
by one and in their order, and the identifiers of edges are distinct. When a relationship is taken
in, the search for its identifier ends; its edge, under the identifier that was found, goes behind
the others and replaces none of them, and if its subject or its object stands for no class then the
schema stays what it was. -/
theorem represents_edges (options : SchemaOptions) (s : Statements)
    (hsize : s.relationFacts.length < 2 ^ 32 - 2) :
    List.Forall₂ (fun f e => Edge.Represents options e f) s.keptFacts
        (ofStatements options s).edges.entries ∧
      (ofStatements options s).edges.keys.Nodup ∧
      ∀ before f after, s.relationFacts = before ++ f :: after →
        let S := afterRelations options s before
        ∃ n, S.SearchEnds f n ∧
          (S.edges.insert (f.edge options s (f.edgeId n))).entries =
            S.edges.entries ++ [f.edge options s (f.edgeId n)] ∧
          afterRelations options s (before ++ [f]) =
            if s.Kept f then { S with edges := S.edges.insert (f.edge options s (f.edgeId n)) }
            else S := by
  refine ⟨?_, (ofStatements options s).edges.nodup_keys, ?_⟩
  · exact (forall₂_edges_ofStatements options s).imp fun _ _ => represents_of_givesEdge
  · intro before f after hfacts S
    have hbefore : before.length < s.relationFacts.length := by
      rw [hfacts, List.length_append, List.length_cons]
      omega
    have hedges : S.edges.size ≤ before.length := size_edges_afterRelations_le before
    have hends := searchEnds_freeNumber (S := S) (by omega) f
    exact ⟨S.freeNumber f, hends, entries_insert_edge hends.free,
      afterRelations_append options s before f⟩

/-- Three relationships that want the identifiers `A_b_c_D` and `A_b_c_D_2`, and one to a subject
that stands for no class. -/
def crowdedFacts : List Fact :=
  let iri (name : String) : Iri := ⟨"http://example.org/" ++ name⟩
  let relation (subject name object : String) : Fact :=
    .ofRelation (.toClass subject (iri name) (iri object) .any [])
  (["A", "A_b", "D", "D_2"].map fun name => .ofClass ⟨name, iri name⟩) ++
    [relation "A" "b_c" "D", relation "A" "x" "E", relation "A" "b_c" "D_2", relation "A_b" "c" "D"]

/-- The relationships that want one identifier all become edges. -/
theorem represents_edges_crowdedFacts :
    let s := Statements.ofList "crowded" "http://example.org/" crowdedFacts
    s.relationFacts.length < 2 ^ 32 - 2 ∧
      List.Forall₂ (fun f e => Edge.Represents {} e f) s.keptFacts
        (ofStatements {} s).edges.entries ∧
      (ofStatements {} s).edges.keys.Nodup ∧
      ∀ before f after, s.relationFacts = before ++ f :: after →
        let S := afterRelations {} s before
        ∃ n, S.SearchEnds f n ∧
          (S.edges.insert (f.edge {} s (f.edgeId n))).entries =
            S.edges.entries ++ [f.edge {} s (f.edgeId n)] ∧
          afterRelations {} s (before ++ [f]) =
            if s.Kept f then { S with edges := S.edges.insert (f.edge {} s (f.edgeId n)) }
            else S := by
  intro s
  have hsize : s.relationFacts.length < 2 ^ 32 - 2 := by decide +kernel
  exact ⟨hsize, represents_edges {} s hsize⟩

example : (ofStatements {} (.ofList "crowded" "http://example.org/" crowdedFacts)).edges.keys =
    ["A_b_c_D", "A_b_c_D_2", "A_b_c_D_3"] := by
  decide +kernel

end ShapeSchema.Schema
