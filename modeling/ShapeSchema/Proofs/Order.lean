import ShapeSchema.Proofs.Lowering

/-!
# The order of statements

Facts may be told in any order, and so may the properties of a relationship if they have distinct
names. None of this shows in the schema of the facts, except in the order of its nodes and edges and
in the identifiers of edges.

No fact takes the place of another one in the schema, because facts have distinct identifiers. A
subject has therefore one class, and one property of its own under each name; copies of the
properties of relationships may stand between them and are passed over. So nodes and edges are
filled with constraints of distinct names, whose order is not seen.

## Main definitions

* `ShapeSchema.Fact.Reordered` — facts that differ in the order of properties at most.
* `ShapeSchema.Statements.Reordered` — statements that hold such facts in any order.

## Main results

* `ShapeSchema.Schema.same_of_reordered` — their schemas are the same.
-/

namespace ShapeSchema

/-- One fact is another one, whose properties may come in another order if they have distinct
names. -/
inductive Fact.Reordered : Fact → Fact → Prop
  /-- Nothing is reordered. -/
  | refl (f : Fact) : Reordered f f
  /-- The properties of a relationship are reordered. -/
  | properties {f : RelationFact} {properties : List Property} (hp : f.properties.Perm properties)
      (hnames : (f.properties.map Property.name).Nodup) :
      Reordered (.ofRelation f) (.ofRelation { f with properties := properties })

/-- Two statements hold the same facts in any two orders, where properties of relationships may be
reordered as well. -/
def Statements.Reordered (s t : Statements) : Prop :=
  ∃ facts, s.toList.Perm facts ∧ List.Forall₂ Fact.Reordered facts t.toList

namespace Fact.Reordered

variable {f g : Fact}

/-- Reordering leaves a class as it is. -/
theorem class?_eq (h : f.Reordered g) : f.class? = g.class? := by
  cases h <;> rfl

/-- It leaves a property of a subject as it is. -/
theorem property?_eq (h : f.Reordered g) : f.property? = g.property? := by
  cases h <;> rfl

/-- A relationship keeps its outline. -/
theorem outline_eq (h : f.Reordered g) :
    f.relation?.map RelationFact.outline = g.relation?.map RelationFact.outline := by
  cases h with
  | refl => rfl
  | properties hp hnames =>
    refine congrArg some (Prod.ext rfl ?_)
    exact RelationFact.ofList_nestedEntries_perm hp hnames

/-- What is the same of single facts is the same of lists of them. -/
theorem filterMap_eq {α : Type} {part : Fact → Option α}
    (hpart : ∀ {f g : Fact}, f.Reordered g → part f = part g) {l m : List Fact}
    (h : List.Forall₂ Fact.Reordered l m) : l.filterMap part = m.filterMap part := by
  induction h with
  | nil => rfl
  | cons hfg _ ih => rw [List.filterMap_cons, List.filterMap_cons, hpart hfg, ih]

end Fact.Reordered

namespace Statements

/-- So it is the same of reordered statements, up to order. -/
theorem Reordered.filterMap_perm {s t : Statements} (h : s.Reordered t) {α : Type}
    {part : Fact → Option α} (hpart : ∀ {f g : Fact}, f.Reordered g → part f = part g) :
    (s.toList.filterMap part).Perm (t.toList.filterMap part) := by
  obtain ⟨facts, hperm, hfacts⟩ := h
  rw [← Fact.Reordered.filterMap_eq hpart hfacts]
  exact hperm.filterMap part

end Statements

namespace Schema

/-- **Order of statements.** Take any two sets of statements that hold the same facts, in any two
orders and with the properties of relationships in any order if these have distinct names. They have
the same schema up to the order of nodes and edges and the identifiers of edges. -/
theorem same_of_reordered (options : SchemaOptions) (s t : Statements) (h : s.Reordered t) :
    (ofStatements options s).Same (ofStatements options t) := by
  have hclasses : s.classFacts.Perm t.classFacts := h.filterMap_perm Fact.Reordered.class?_eq
  have hproperties : s.ownPropertyFacts.Perm t.ownPropertyFacts :=
    (h.filterMap_perm Fact.Reordered.property?_eq).filter _
  have hentries : s.SameEntries t := fun subject => (hproperties.filter _).map _
  have hrelations : (s.relationFacts.map RelationFact.outline).Perm
      (t.relationFacts.map RelationFact.outline) := by
    have houtlines := h.filterMap_perm Fact.Reordered.outline_eq
    rw [← List.map_filterMap, ← List.map_filterMap] at houtlines
    exact houtlines
  exact same_of_outlines options hclasses hentries (keptFacts_perm hclasses hrelations)

/-- A relationship of persons with two properties, one of which is copied, and a further property of
the relationship that is stated of persons. -/
def friendFacts (properties : List Property) : List Fact :=
  let iri (name : String) : Iri := ⟨"http://example.org/" ++ name⟩
  [.ofClass ⟨"Person", iri "Person"⟩,
    .ofRelation (.toClass "Person" (iri "knows") (iri "Person") .any properties),
    .ofProperty ⟨"Person", ⟨iri "since", xsd "date", ⟨0, some 1⟩⟩, some (iri "knows")⟩,
    .ofProperty ⟨"Person", ⟨iri "knows_where", xsd "string", .any⟩, none⟩]

/-- Since when people know each other, and how well. -/
def friendProperties : List Property :=
  let iri (name : String) : Iri := ⟨"http://example.org/" ++ name⟩
  [⟨iri "since", xsd "date", ⟨0, some 1⟩⟩, ⟨iri "closeness", xsd "integer", ⟨1, none⟩⟩]

/-- Everything about friends is told backwards. -/
theorem same_of_reordered_friends :
    (Statements.ofList "" "" (friendFacts friendProperties)).Reordered
        (Statements.ofList "" "" (friendFacts friendProperties.reverse).reverse) ∧
      (ofStatements {} (Statements.ofList "" "" (friendFacts friendProperties))).Same
        (ofStatements {}
          (Statements.ofList "" "" (friendFacts friendProperties.reverse).reverse)) := by
  have hfacts : (Statements.ofList "" "" (friendFacts friendProperties)).toList =
      friendFacts friendProperties := by decide +kernel
  have hfacts' : (Statements.ofList "" "" (friendFacts friendProperties.reverse).reverse).toList =
      (friendFacts friendProperties.reverse).reverse := by decide +kernel
  have hnames : (friendProperties.map Property.name).Nodup := by decide +kernel
  have h : (Statements.ofList "" "" (friendFacts friendProperties)).Reordered
      (Statements.ofList "" "" (friendFacts friendProperties.reverse).reverse) := by
    refine ⟨(friendFacts friendProperties).reverse, ?_, ?_⟩
    · rw [hfacts]
      exact (List.reverse_perm _).symm
    · rw [hfacts', List.forall₂_reverse_iff]
      refine .cons (.refl _) (.cons ?_ (.cons (.refl _) (.cons (.refl _) .nil)))
      exact .properties (List.reverse_perm friendProperties).symm hnames
  exact ⟨h, same_of_reordered {} _ _ h⟩

end Schema

end ShapeSchema
