import Mathlib.Data.Multiset.Basic
import ShapeSchema.Proofs.Registry
import ShapeSchema.Statement.ToShapes

/-!
# What statements say

Two lists of facts say the same if they differ only in the order of the facts and in the order of
the properties of each relationship. So a fact is compared by its content, where the properties of
a relationship form a multiset, and statements are compared by the contents of their facts.

Copied properties repeat what relationships say and are left out of the comparison.

## Main definitions

* `ShapeSchema.Fact.content` — a fact without the order of a relationship's properties.
* `ShapeSchema.Statements.content` — the contents of the facts that are no copies.
* `ShapeSchema.Statements.Closed` — facts speak only of subjects that stand for classes.

## Main results

* `ShapeSchema.Fact.id_eq_of_content_eq` — the identifier belongs to the content.
* `ShapeSchema.Fact.kind_eq_of_id_eq` — the kind belongs to the identifier.
* `ShapeSchema.Statements.nodup_subjects`, `ShapeSchema.Statements.nodup_ownNames` — subjects and
  names that occur once.
* `ShapeSchema.Statements.classFacts_perm`, `ShapeSchema.Statements.ownPropertyFacts_perm`,
  `ShapeSchema.Statements.relations_perm` — what equal contents mean for each kind of facts.
-/

namespace ShapeSchema

/-! ## Contents of facts -/

/-- The content of a relationship: what it says besides its properties, and its properties in no
order. -/
def RelationFact.content (f : RelationFact) : RelationFact × Multiset Property :=
  ({ f with properties := [] }, f.properties)

/-- Relationships with one content have the same properties in some order. -/
theorem RelationFact.perm_of_content_eq {f g : RelationFact} (h : f.content = g.content) :
    f.properties.Perm g.properties := by
  simp only [content, Prod.mk.injEq] at h
  exact Multiset.coe_eq_coe.1 h.2

namespace Fact

/-- The content of a fact: the properties of a relationship come in no order. -/
def content : Fact → Fact × Multiset Property
  | ofRelation f => (.ofRelation f.content.1, f.content.2)
  | f => (f, 0)

/-- A class or a property is its own content. -/
theorem eq_of_content_eq {f g : Fact} (h : f.content = g.content) (hf : f.relation? = none) :
    f = g := by
  cases f with
  | ofRelation f => simp [relation?] at hf
  | ofClass f | ofProperty f => cases g <;> simp_all [content]

/-- Facts with one content are of one kind and differ in the order of properties at most. -/
theorem content_ofRelation_eq {f : RelationFact} {g : Fact}
    (h : g.content = (ofRelation f).content) :
    ∃ f', g = .ofRelation f' ∧ f'.content = f.content := by
  cases g with
  | ofRelation f' =>
    refine ⟨f', rfl, ?_⟩
    simp only [content, Prod.mk.injEq, ofRelation.injEq] at h
    exact Prod.ext h.1 h.2
  | ofClass f' | ofProperty f' => simp [content] at h

/-- **Identifiers** belong to the content of a fact. -/
theorem id_eq_of_content_eq {f g : Fact} (h : f.content = g.content) : f.id = g.id := by
  cases f with
  | ofRelation f =>
    obtain ⟨f', rfl, hf⟩ := content_ofRelation_eq h.symm
    simp only [RelationFact.content, Prod.mk.injEq, RelationFact.mk.injEq] at hf
    simp only [id, RelationFact.name, hf]
  | ofClass f | ofProperty f => rw [eq_of_content_eq h rfl]

/-! ## Kinds of facts -/

/-- Only a class says that a subject has a class. -/
theorem class?_eq_some_iff {f : Fact} {c : ClassFact} : f.class? = some c ↔ f = .ofClass c := by
  cases f <;> simp [class?]

/-- Only a property says that a subject has a property. -/
theorem property?_eq_some_iff {f : Fact} {p : PropertyFact} :
    f.property? = some p ↔ f = .ofProperty p := by
  cases f <;> simp [property?]

/-- Only a relationship says that a subject has a relationship. -/
theorem relation?_eq_some_iff {f : Fact} {r : RelationFact} :
    f.relation? = some r ↔ f = .ofRelation r := by
  cases f <;> simp [relation?]

/-- Facts with one identifier are of one kind, because the identifier begins with it. -/
theorem kind_eq_of_id_eq {f g : Fact} (h : f.id = g.id) :
    f.class?.isSome = g.class?.isSome ∧ f.property?.isSome = g.property?.isSome ∧
      f.relation?.isSome = g.relation?.isSome := by
  have hhead := congrArg (fun id => id.toList.head?) h
  cases f <;> cases g <;> first | exact ⟨rfl, rfl, rfl⟩ | simp [id] at hhead

end Fact

namespace Statements

/-! ## Facts of statements -/

variable {s t : Statements}

/-- The classes are those among the facts. -/
theorem mem_classFacts_iff {f : ClassFact} : f ∈ s.classFacts ↔ .ofClass f ∈ s.toList := by
  simp only [classFacts, List.mem_filterMap, Fact.class?_eq_some_iff, exists_eq_right]

/-- The properties are those among the facts. -/
theorem mem_propertyFacts_iff {f : PropertyFact} :
    f ∈ s.propertyFacts ↔ .ofProperty f ∈ s.toList := by
  simp only [propertyFacts, List.mem_filterMap, Fact.property?_eq_some_iff, exists_eq_right]

/-- The relationships are those among the facts. -/
theorem mem_relationFacts_iff {f : RelationFact} :
    f ∈ s.relationFacts ↔ .ofRelation f ∈ s.toList := by
  simp only [relationFacts, List.mem_filterMap, Fact.relation?_eq_some_iff, exists_eq_right]

/-- The properties of subjects themselves are the property facts that are no copies. -/
theorem mem_ownPropertyFacts_iff {f : PropertyFact} :
    f ∈ s.ownPropertyFacts ↔ .ofProperty f ∈ s.toList ∧ f.copyOf = none := by
  rw [ownPropertyFacts, List.mem_filter, mem_propertyFacts_iff]
  simp [PropertyFact.isCopy]

/-- Shapes are made of the facts that are no copies. -/
theorem mem_shapeFacts_iff {f : Fact} : f ∈ s.shapeFacts ↔ f ∈ s.toList ∧ f.isCopy = false := by
  rw [shapeFacts, List.mem_filter]
  simp

/-- The contents of the facts that are no copies. -/
def content (s : Statements) : List (Fact × Multiset Property) := s.shapeFacts.map Fact.content

/-- A subject stands for a class. -/
def HasSubject (s : Statements) (subject : String) : Prop :=
  ∃ c ∈ s.classFacts, c.subject = subject

instance (s : Statements) (subject : String) : Decidable (s.HasSubject subject) :=
  inferInstanceAs (Decidable (∃ c ∈ s.classFacts, c.subject = subject))

/-! ## Identifiers -/

/-- Facts are told apart by their identifiers. -/
theorem eq_of_id_eq {f g : Fact} (hf : f ∈ s.toList) (hg : g ∈ s.toList) (hid : f.id = g.id) :
    f = g :=
  Registry.eq_of_key_eq hf hg hid

/-- No fact of one kind occurs twice. -/
private theorem nodup_filterMap {α : Type} {kind : Fact → Option α} {fact : α → Fact}
    (hkind : ∀ {f a}, kind f = some a ↔ f = fact a) : (s.toList.filterMap kind).Nodup := by
  refine s.facts.nodup_entries.filterMap ?_
  intro f g a hf hg
  rw [hkind.1 hf, hkind.1 hg]

/-- The facts that are no copies have distinct identifiers. -/
theorem nodup_shapeIds (s : Statements) : (s.shapeFacts.map Fact.id).Nodup :=
  s.facts.nodup.sublist (List.filter_sublist.map _)

/-- No content occurs twice, because the identifier belongs to it. -/
theorem nodup_content (s : Statements) : s.content.Nodup := by
  have hids := s.nodup_shapeIds
  rw [List.Nodup, List.pairwise_map] at hids
  rw [content, List.Nodup, List.pairwise_map]
  exact hids.imp fun hne heq => hne (Fact.id_eq_of_content_eq heq)

/-- A subject stands for one class only. -/
theorem eq_of_subject_eq {c d : ClassFact} (hc : c ∈ s.classFacts) (hd : d ∈ s.classFacts)
    (hcd : c.subject = d.subject) : c = d := by
  have heq := eq_of_id_eq (mem_classFacts_iff.1 hc) (mem_classFacts_iff.1 hd)
    (by simp only [Fact.id, hcd])
  exact Fact.ofClass.inj heq

/-- **Subjects** stand for a class once. -/
theorem nodup_subjects (s : Statements) : (s.classFacts.map (·.subject)).Nodup := by
  have hclass : s.classFacts.Nodup := nodup_filterMap Fact.class?_eq_some_iff
  exact hclass.map_on fun c hc d hd hcd => eq_of_subject_eq hc hd hcd

/-- A subject has a property of its own once under each name. -/
theorem eq_of_ownName_eq {p q : PropertyFact} (hp : p ∈ s.ownPropertyFacts)
    (hq : q ∈ s.ownPropertyFacts) (hsubject : p.subject = q.subject)
    (hname : p.property.name = q.property.name) : p = q := by
  obtain ⟨hp, hpc⟩ := mem_ownPropertyFacts_iff.1 hp
  obtain ⟨hq, hqc⟩ := mem_ownPropertyFacts_iff.1 hq
  have heq := eq_of_id_eq hp hq
    (by simp only [Fact.id, PropertyFact.name, hpc, hqc, hsubject, hname])
  exact Fact.ofProperty.inj heq

/-- No fact about a property of a subject itself occurs twice. -/
theorem nodup_ownPropertyFacts (s : Statements) : s.ownPropertyFacts.Nodup :=
  (nodup_filterMap Fact.property?_eq_some_iff).filter _

/-- **Names.** The properties of a subject itself have distinct names. -/
theorem nodup_ownNames (s : Statements) (subject : String) :
    ((s.ownPropertyFacts.filter (·.subject = subject)).map (·.property.name)).Nodup := by
  refine (s.nodup_ownPropertyFacts.filter _).map_on ?_
  intro p hp q hq hname
  simp only [List.mem_filter, decide_eq_true_eq] at hp hq
  exact eq_of_ownName_eq hp.1 hq.1 (hp.2.trans hq.2.symm) hname

/-- The facts about relationships have distinct identifiers. -/
theorem nodup_relationIds (s : Statements) :
    (s.relationFacts.map fun f => (Fact.ofRelation f).id).Nodup := by
  have hnodup : s.relationFacts.Nodup := nodup_filterMap Fact.relation?_eq_some_iff
  refine hnodup.map_on fun f hf g hg hid => ?_
  rw [mem_relationFacts_iff] at hf hg
  exact Fact.ofRelation.inj (eq_of_id_eq hf hg hid)

/-! ## Contents of statements -/

/-- The classes belong to the content of statements. -/
theorem classFacts_eq_filterMap_content (s : Statements) :
    s.classFacts = s.content.filterMap (·.1.class?) := by
  rw [content, shapeFacts, List.filterMap_map, List.filterMap_filter]
  refine List.filterMap_congr fun f _ => ?_
  cases f <;> simp [Fact.class?, Fact.content, Fact.isCopy]

/-- So do the properties of subjects themselves. -/
theorem ownPropertyFacts_eq_filterMap_content (s : Statements) :
    s.ownPropertyFacts = s.content.filterMap (·.1.property?) := by
  rw [content, shapeFacts, List.filterMap_map, List.filterMap_filter, ownPropertyFacts,
    propertyFacts, List.filter_filterMap]
  refine List.filterMap_congr fun f _ => ?_
  cases f <;> simp [Fact.property?, Fact.content, Fact.isCopy, Option.filter]

/-- So do the contents of the relationships. -/
private theorem relations_eq_filterMap_content (s : Statements) :
    s.relationFacts.map RelationFact.content =
      s.content.filterMap fun c => c.1.relation?.map (·, c.2) := by
  rw [content, shapeFacts, List.filterMap_map, List.filterMap_filter, relationFacts,
    List.map_filterMap]
  refine List.filterMap_congr fun f _ => ?_
  cases f <;> simp [Fact.relation?, Fact.content, Fact.isCopy, RelationFact.content]

/-- Statements that say the same have the same classes. -/
theorem classFacts_perm (h : s.content.Perm t.content) : s.classFacts.Perm t.classFacts := by
  rw [classFacts_eq_filterMap_content, classFacts_eq_filterMap_content]
  exact h.filterMap _

/-- Statements that say the same have the same properties of subjects themselves. -/
theorem ownPropertyFacts_perm (h : s.content.Perm t.content) :
    s.ownPropertyFacts.Perm t.ownPropertyFacts := by
  rw [ownPropertyFacts_eq_filterMap_content, ownPropertyFacts_eq_filterMap_content]
  exact h.filterMap _

/-- Statements that say the same have the same relationships, up to the order of properties. -/
theorem relations_perm (h : s.content.Perm t.content) :
    (s.relationFacts.map RelationFact.content).Perm
      (t.relationFacts.map RelationFact.content) := by
  rw [relations_eq_filterMap_content, relations_eq_filterMap_content]
  exact h.filterMap _

/-! ## Closed statements -/

/-- Every fact speaks of subjects that stand for classes, and subjects are named after their
classes. -/
structure Closed (s : Statements) : Prop where
  /-- A subject is the local name of its class. -/
  classes : ∀ c ∈ s.classFacts, c.subject = c.object.localName
  /-- The subject of a property stands for a class. -/
  properties : ∀ p ∈ s.ownPropertyFacts, s.HasSubject p.subject
  /-- The subject of a relationship stands for a class. -/
  relations : ∀ f ∈ s.relationFacts, s.HasSubject f.subject
  /-- The object of a relationship is named after its class. -/
  targets : ∀ f ∈ s.relationFacts, f.object = f.target.localName

instance (s : Statements) : Decidable s.Closed :=
  decidable_of_iff
    ((∀ c ∈ s.classFacts, c.subject = c.object.localName) ∧
      (∀ p ∈ s.ownPropertyFacts, s.HasSubject p.subject) ∧
      (∀ f ∈ s.relationFacts, s.HasSubject f.subject) ∧
      ∀ f ∈ s.relationFacts, f.object = f.target.localName)
    ⟨fun ⟨hc, hp, hr, ht⟩ => ⟨hc, hp, hr, ht⟩, fun ⟨hc, hp, hr, ht⟩ => ⟨hc, hp, hr, ht⟩⟩

/-- In closed statements, the subject of every fact that is no copy stands for a class. -/
theorem Closed.hasSubject (h : s.Closed) {f : Fact} (hf : f ∈ s.shapeFacts) :
    s.HasSubject f.subject := by
  obtain ⟨hf, hcopy⟩ := mem_shapeFacts_iff.1 hf
  cases f with
  | ofClass c => exact ⟨c, mem_classFacts_iff.2 hf, rfl⟩
  | ofProperty p =>
    have hown : p.copyOf = none := by simpa [Fact.isCopy, PropertyFact.isCopy] using hcopy
    exact h.properties p (mem_ownPropertyFacts_iff.2 ⟨hf, hown⟩)
  | ofRelation r => exact h.relations r (mem_relationFacts_iff.2 hf)

end Statements

end ShapeSchema
