import Mathlib.Data.List.Find
import ShapeSchema.Proofs.Lowering
import ShapeSchema.Proofs.Reading
import ShapeSchema.Schema.Validation

/-!
# What checking instances means

Instances are checked against the nodes of a schema, but what is found can be said without the
schema: the label of an instance has to be a subject, and of every property of this subject there
have to be as many values as its cardinality allows. A value that is missing is no value, so a
required property that is missing is one with too few values.

For this, the node that is found for a label has to be that of the subject with this name. It is if
subjects are named after their classes, as they are when shapes are read. Relationships and copies
play no part.

## Main definitions

* `ShapeSchema.Instance.count` — how many values an instance has of a property.
* `ShapeSchema.Instance.Fits` — an instance is as statements say.

## Main results

* `ShapeSchema.Schema.Node.violations_eq_nil_iff` — what nodes demand of values.
* `ShapeSchema.Schema.nodeWithLabel?_ofStatements` — the node that is found for a label.
* `ShapeSchema.Schema.nodes_ofStatements_congr` — what nodes depend on.
* `ShapeSchema.Schema.violationsOfAll_ofShapes` — what shapes demand of instances.
-/

namespace ShapeSchema

open Rdf (Graph)

/-! ## Counting values -/

/-- How many values an instance has of a property: none if there is no value or `null`, the items of
an array, and otherwise one. -/
def Instance.count (i : Instance) (name : String) : Nat :=
  match i.properties.get? name with
  | none | some .null => 0
  | some (.array items) => items.length
  | some _ => 1

/-- The number of values under a name; there are none if nothing is there or if it cannot be
counted. -/
theorem Instance.count_eq (i : Instance) (name : String) :
    i.count name = ((i.properties.get? name).bind Json.count?).getD 0 := by
  unfold count
  cases i.properties.get? name with
  | none => rfl
  | some value => cases value <;> rfl

/-- An instance is as statements say: its label is a subject, and it has as many values of the
properties of this subject as they allow. -/
structure Instance.Fits (s : Statements) (i : Instance) : Prop where
  /-- The label is a subject. -/
  label : s.HasSubject i.label
  /-- There are as many values as the properties allow. -/
  counts : ∀ p ∈ s.ownPropertyFacts, p.subject = i.label →
    p.property.cardinality.Allows (i.count p.property.name)

namespace Cardinality

/-- A value is required just if the lower bound is not zero. -/
theorem required_iff {c : Cardinality} : c.required = true ↔ 0 < c.min.toNat := by
  rw [required, decide_eq_true_iff, UInt64.lt_iff_toNat_lt]
  rfl

/-- No values are allowed unless one is required. -/
theorem allows_zero_iff {c : Cardinality} : c.Allows 0 ↔ c.required = false := by
  rw [← Bool.not_eq_true, required_iff]
  constructor
  · rintro ⟨hmin, -⟩
    omega
  · intro hmin
    exact ⟨by omega, fun m _ => Nat.zero_le _⟩

end Cardinality

/-- Nothing is wrong with a property just if the number of its values is allowed. -/
theorem Constraint.kindsOf_eq_nil_iff {c : Constraint} {value : Option Json} :
    c.kindsOf value = [] ↔ c.cardinality.Allows ((value.bind Json.count?).getD 0) := by
  unfold kindsOf
  cases value.bind Json.count? with
  | none =>
    show (if c.cardinality.required then _ else _) = [] ↔ c.cardinality.Allows 0
    rw [Cardinality.allows_zero_iff]
    split
    · next h => simp [h]
    · next h => simp [h]
  | some count =>
    -- two lists of violations, one for each bound
    show (_ ++ _ = []) ↔ c.cardinality.Allows count
    rw [List.append_eq_nil_iff, List.map_eq_nil_iff, List.filter_eq_nil_iff]
    refine and_congr ?_ ?_
    · split
      · next h => simp [h]
      · next h => simpa using h
    · simp

namespace Schema

/-! ## What nodes demand -/

variable {s t : Statements} {S T : Schema}

/-- **Nodes** demand that there are as many values of each property as its constraint allows. -/
theorem Node.violations_eq_nil_iff {n : Node} {i : Instance} :
    n.violations i.properties = [] ↔
      ∀ e ∈ n.constraints.entries, e.2.cardinality.Allows (i.count e.1) := by
  unfold violations
  rw [List.flatMap_eq_nil_iff]
  refine forall_congr' fun e => forall_congr' fun _ => ?_
  rw [List.map_eq_nil_iff, Constraint.kindsOf_eq_nil_iff, Instance.count_eq]

/-- An instance is fine just if there is a node with its label whose demands it meets. -/
private theorem violationsOf_eq_nil_iff {i : Instance} :
    S.violationsOf i = [] ↔
      ∃ n, S.nodeWithLabel? i.label = some n ∧ n.violations i.properties = [] := by
  unfold violationsOf
  cases S.nodeWithLabel? i.label with
  | none => simp
  | some n => simp

/-! ## The node with a label -/

/-- **Labels.** The node that is found for a label is that of the subject with this name. -/
theorem nodeWithLabel?_ofStatements (options : SchemaOptions) (hc : s.Closed)
    (label : String) :
    (ofStatements options s).nodeWithLabel? label =
      (s.classFacts.find? (·.subject = label)).map s.nodeOf := by
  have hlabel : ∀ c ∈ s.classFacts,
      (s.nodeOf c).labels.contains label = decide (c.subject = label) := by
    intro c hcmem
    rw [hc.classes c hcmem]
    show (List.lookup label [(c.object.localName, ())]).isSome = _
    rw [Dict.lookup_cons]
    split
    · next h => simp [h]
    · next h => simp [Ne.symm h]
  rw [nodeWithLabel?, nodes_ofStatements, List.find?_map]
  congr 1
  exact List.find?_congr hlabel

/-- The demands of the node of a class are those of the properties of its subject. -/
private theorem violations_nodeOf_eq_nil_iff {c : ClassFact} {i : Instance} :
    (s.nodeOf c).violations i.properties = [] ↔
      ∀ p ∈ s.ownPropertyFacts, p.subject = c.subject →
        p.property.cardinality.Allows (i.count p.property.name) := by
  rw [Node.violations_eq_nil_iff]
  constructor
  · intro h p hp hsubject
    exact h _ (Statements.mem_nodeOf_entries_iff.2 ⟨p, hp, hsubject, rfl⟩)
  · intro h e he
    obtain ⟨p, hp, hsubject, rfl⟩ := Statements.mem_nodeOf_entries_iff.1 he
    exact h p hp hsubject

/-- An instance is fine just if it is as the statements say. -/
theorem violationsOf_ofStatements_eq_nil_iff (options : SchemaOptions)
    (hc : s.Closed) {i : Instance} :
    (ofStatements options s).violationsOf i = [] ↔ i.Fits s := by
  rw [violationsOf_eq_nil_iff, nodeWithLabel?_ofStatements options hc]
  constructor
  · rintro ⟨n, hn, hnil⟩
    obtain ⟨c, hfound, rfl⟩ := Option.map_eq_some_iff.1 hn
    have hsubject : c.subject = i.label := by simpa using List.find?_some hfound
    refine ⟨⟨c, List.mem_of_find?_eq_some hfound, hsubject⟩, ?_⟩
    rw [← hsubject]
    exact violations_nodeOf_eq_nil_iff.1 hnil
  · rintro ⟨⟨c, hcmem, hsubject⟩, hcounts⟩
    have hsome : (s.classFacts.find? (·.subject = i.label)).isSome :=
      List.find?_isSome.2 ⟨c, hcmem, by simpa using hsubject⟩
    obtain ⟨d, hfound⟩ := Option.isSome_iff_exists.1 hsome
    have hd : d.subject = i.label := by simpa using List.find?_some hfound
    refine ⟨s.nodeOf d, by rw [hfound]; rfl, ?_⟩
    rw [← hd] at hcounts
    exact violations_nodeOf_eq_nil_iff.2 hcounts

/-! ## What plays no part -/

/-- Where every step changes nodes by what they are, the nodes in the end depend on the nodes at the
beginning. -/
private theorem nodes_foldl_congr {α : Type} {step : Schema → α → Schema}
    (hstep : ∀ S T a, S.nodes = T.nodes → (step S a).nodes = (step T a).nodes) (l : List α)
    (h : S.nodes = T.nodes) : (l.foldl step S).nodes = (l.foldl step T).nodes := by
  induction l generalizing S T with
  | nil => exact h
  | cons a l ih => exact ih (hstep S T a h)

/-- **Nodes** depend on the classes and on the properties of subjects themselves. -/
theorem nodes_ofStatements_congr (options options' : SchemaOptions)
    (hclasses : s.classFacts = t.classFacts)
    (hproperties : s.ownPropertyFacts = t.ownPropertyFacts) :
    (ofStatements options s).nodes = (ofStatements options' t).nodes := by
  have hclass : ∀ (S T : Schema) c, S.nodes = T.nodes →
      (S.addClass c).nodes = (T.addClass c).nodes := by
    intro S T c h
    simp only [addClass, updateNode, insertNode, nodeOrBare, node?, h]
  have hproperty : ∀ (S T : Schema) p, S.nodes = T.nodes →
      (S.addProperty p).nodes = (T.addProperty p).nodes := by
    intro S T p h
    unfold addProperty
    rw [node?, node?, h]
    split
    · simp only [insertNode, h]
    · exact h
  rw [ofStatements, ofStatements, (foldl_addRelation _ _ _ _).1, (foldl_addRelation _ _ _ _).1,
    nodesOfStatements, nodesOfStatements, hclasses, hproperties]
  exact nodes_foldl_congr hproperty _ (nodes_foldl_congr hclass _ rfl)

/-- Schemas with the same nodes find the same to be wrong with instances. -/
private theorem violationsOfAll_congr (h : S.nodes = T.nodes) (instances : List Instance) :
    S.violationsOfAll instances = T.violationsOfAll instances := by
  have hfind : S.nodeWithLabel? = T.nodeWithLabel? := by
    funext label
    rw [nodeWithLabel?, nodeWithLabel?, h]
  have hinstance : S.violationsOf = T.violationsOf := by
    funext i
    rw [violationsOf, violationsOf, hfind]
  rw [violationsOfAll, violationsOfAll, hinstance]

/-- **What shapes demand of instances.** Let a schema be made of the shapes of a graph.

* Nothing is wrong with some instances just if each of them is as the statements of the graph say:
  its label is a subject, and of the properties of this subject it has as many values as they allow.
* Only the classes and the properties of subjects themselves count. With any relationships, with any
  properties of these, with any copies and with other options, the same is found to be wrong. -/
theorem violationsOfAll_ofShapes (reading : ReadingOptions) (g : Graph) (options : SchemaOptions)
    (instances : List Instance) :
    let s := Statements.ofShapes reading g
    ((ofStatements options s).violationsOfAll instances = [] ↔ ∀ i ∈ instances, i.Fits s) ∧
      ∀ (options' : SchemaOptions) (t : Statements), t.classFacts = s.classFacts →
        t.ownPropertyFacts = s.ownPropertyFacts →
          (ofStatements options' t).violationsOfAll instances =
            (ofStatements options s).violationsOfAll instances := by
  intro s
  constructor
  · have hc := Statements.closed_ofShapes reading g
    rw [violationsOfAll, List.flatMap_eq_nil_iff]
    exact forall₂_congr fun i _ => violationsOf_ofStatements_eq_nil_iff options hc
  · intro options' t hclasses hproperties
    exact violationsOfAll_congr (nodes_ofStatements_congr options' options hclasses hproperties) _

end Schema

end ShapeSchema
