import Mathlib.Data.List.Nodup
import Mathlib.Data.Set.Defs
import ShapeSchema.Rdf.Graph

/-!
# Graphs as sets of triples

What a graph means is its set of triples. The order in which they are listed decides only in which
order values are met, and whether a property that has several values is read as one or the other.

## Main definitions

* `ShapeSchema.Rdf.Graph.toSet` — the triples of a graph without their order.
* `ShapeSchema.Rdf.SingleValued` — a property of which no subject has two values.

## Main results

* `ShapeSchema.Rdf.Graph.mem_objects_iff`, `ShapeSchema.Rdf.Graph.mem_subjects_iff` — what is looked
  up in a graph is what is in the set.
* `ShapeSchema.Rdf.Graph.object?_eq_some_iff` — a single value is read in every order.
-/

namespace ShapeSchema.Rdf

/-- No subject has two values of the property. -/
def SingleValued (triples : Set Triple) (predicate : Iri) : Prop :=
  ∀ ⦃s : Subject⦄ ⦃a b : Term⦄,
    ⟨s, predicate, a⟩ ∈ triples → ⟨s, predicate, b⟩ ∈ triples → a = b

/-- A term can be a subject just if it is this subject as a term. -/
theorem Term.subject?_eq_some_iff {t : Term} {s : Subject} :
    t.subject? = some s ↔ t = s.toTerm := by
  cases t <;> cases s <;> simp [Term.subject?, Subject.toTerm]

/-- A subject as a term can be this subject. -/
@[simp] theorem Subject.subject?_toTerm (s : Subject) : s.toTerm.subject? = some s :=
  Term.subject?_eq_some_iff.2 rfl

/-- Subjects stay apart as terms. -/
theorem Subject.toTerm_injective {s t : Subject} (h : s.toTerm = t.toTerm) : s = t := by
  have hs := Subject.subject?_toTerm s
  rw [h, Subject.subject?_toTerm, Option.some.injEq] at hs
  exact hs.symm

/-- Only an IRI is an IRI as a term. -/
theorem Term.iri?_eq_some_iff {t : Term} {i : Iri} : t.iri? = some i ↔ t = .iri i := by
  cases t <;> simp [Term.iri?]

namespace Graph

variable {g h : Graph} {s : Subject} {p : Iri} {o : Term}

/-- The triples of a graph, without their order. -/
def toSet (g : Graph) : Set Triple := fun t => t ∈ g.triples

/-- The set has the triples that are listed. -/
theorem mem_toSet {t : Triple} : t ∈ g.toSet ↔ t ∈ g.triples := Iff.rfl

/-- The same graph, listed from the last triple to the first. -/
def backwards (g : Graph) : Graph := ⟨g.triples.reverse, List.nodup_reverse.2 g.nodup⟩

/-- From the last triple to the first, the triples are the same. -/
theorem backwards_perm (g : Graph) : g.backwards.triples.Perm g.triples := List.reverse_perm _

/-- What holds of all pairs of values is checked on the listed triples. -/
theorem forall_values_iff {p : Iri} {P : Term → Term → Prop} :
    (∀ t ∈ g.triples, ∀ u ∈ g.triples, t.predicate = p → u.predicate = p →
      t.subject = u.subject → P t.object u.object) ↔
    ∀ ⦃s : Subject⦄ ⦃a b : Term⦄, ⟨s, p, a⟩ ∈ g.toSet → ⟨s, p, b⟩ ∈ g.toSet → P a b := by
  constructor
  · intro h s a b ha hb
    exact h _ ha _ hb rfl rfl rfl
  · rintro h ⟨s, q, a⟩ ht ⟨s', q', b⟩ hu hq hq' hs
    dsimp only at hq hq' hs
    subst hq hq' hs
    exact h ht hu

instance : Decidable (SingleValued g.toSet p) := decidable_of_iff _ forall_values_iff

/-- Two listings of the same triples mean the same. -/
theorem toSet_eq_of_perm (hp : g.triples.Perm h.triples) : g.toSet = h.toSet := by
  funext t
  exact propext hp.mem_iff

/-! ## Lookups -/

/-- The values of a property are those in the set. -/
theorem mem_objects_iff : o ∈ g.objects s p ↔ ⟨s, p, o⟩ ∈ g.toSet := by
  rw [objects, List.mem_filterMap, mem_toSet]
  constructor
  · rintro ⟨⟨s', p', o'⟩, ht, h⟩
    split at h
    · next heq =>
      obtain ⟨rfl, rfl⟩ := heq
      cases h
      exact ht
    · cases h
  · intro ht
    exact ⟨_, ht, by simp⟩

/-- The subjects that have a value are those in the set. -/
theorem mem_subjects_iff : s ∈ g.subjects p o ↔ ⟨s, p, o⟩ ∈ g.toSet := by
  rw [subjects, List.mem_filterMap, mem_toSet]
  constructor
  · rintro ⟨⟨s', p', o'⟩, ht, h⟩
    split at h
    · next heq =>
      obtain ⟨rfl, rfl⟩ := heq
      cases h
      exact ht
    · cases h
  · intro ht
    exact ⟨_, ht, by simp⟩

/-- No value is met twice. -/
theorem nodup_objects (g : Graph) (s : Subject) (p : Iri) : (g.objects s p).Nodup := by
  refine g.nodup.filterMap ?_
  rintro ⟨s₁, p₁, o₁⟩ ⟨s₂, p₂, o₂⟩ o h₁ h₂
  simp only [Option.mem_def] at h₁ h₂
  split at h₁ <;> split at h₂ <;> simp_all

/-- No subject is met twice. -/
theorem nodup_subjects (g : Graph) (p : Iri) (o : Term) : (g.subjects p o).Nodup := by
  refine g.nodup.filterMap ?_
  rintro ⟨s₁, p₁, o₁⟩ ⟨s₂, p₂, o₂⟩ s h₁ h₂
  simp only [Option.mem_def] at h₁ h₂
  split at h₁ <;> split at h₂ <;> simp_all

/-- Nothing is read for a property without a value. -/
theorem object?_eq_none_iff : g.object? s p = none ↔ ∀ o, ⟨s, p, o⟩ ∉ g.toSet := by
  rw [object?, List.head?_eq_none_iff, List.eq_nil_iff_forall_not_mem]
  simp only [mem_objects_iff]

/-- A value that is read is one of the values in the set. -/
theorem mem_of_object? (h : g.object? s p = some o) : ⟨s, p, o⟩ ∈ g.toSet :=
  mem_objects_iff.1 (List.mem_of_mem_head? h)

/-- If a subject has at most one value of a property, then this is what is read. -/
theorem object?_eq_of_mem_iff {value : Option Term}
    (h : ∀ o, ⟨s, p, o⟩ ∈ g.toSet ↔ value = some o) : g.object? s p = value := by
  cases hread : g.object? s p with
  | none =>
    symm
    rw [Option.eq_none_iff_forall_ne_some]
    exact fun o ho => object?_eq_none_iff.1 hread o ((h o).2 ho)
  | some o => exact ((h o).1 (mem_of_object? hread)).symm

/-- **Single values** are read in every order. -/
theorem object?_eq_some_iff (hp : SingleValued g.toSet p) :
    g.object? s p = some o ↔ ⟨s, p, o⟩ ∈ g.toSet := by
  constructor
  · exact mem_of_object?
  · intro ho
    refine object?_eq_of_mem_iff fun a => ⟨fun ha => congrArg some (hp ho ha), fun heq => ?_⟩
    exact Option.some.inj heq ▸ ho

/-! ## Graphs of given triples -/

/-- Insertions add the triples that are inserted. -/
theorem mem_foldl_insert {l : List Triple} {t : Triple} :
    t ∈ (l.foldl insert g).triples ↔ t ∈ g.triples ∨ t ∈ l := by
  induction l generalizing g with
  | nil => simp
  | cons u rest ih => rw [List.foldl_cons, ih, mem_insert, List.mem_cons, or_assoc]

/-- The graph of some triples has these triples. -/
theorem mem_toSet_ofList {l : List Triple} {t : Triple} : t ∈ (ofList l).toSet ↔ t ∈ l := by
  rw [mem_toSet, ofList, mem_foldl_insert]
  simp [empty]

end Graph

end ShapeSchema.Rdf
