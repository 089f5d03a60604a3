import ShapeSchema.Proofs.Lowering
import ShapeSchema.Proofs.RoundTrip
import ShapeSchema.Schema.ToStatements

/-!
# Going back from a schema

A schema forgets the identifiers of classes, properties and relationships and keeps their local
names. On the way back, names become identifiers in the namespace of the schema. If these have the
names that they were made of, every fact comes back in a simpler form under its old identifier, so
the schema of the new facts is the old one. The constraints that a relationship had taken up from
subjects are now stated by itself, and are taken up once more, which changes nothing.

## Main definitions

* `ShapeSchema.Statements.mintedNames` — the names that become identifiers.
* `ShapeSchema.Statements.Raisable` — names and types can be read back.
* `ShapeSchema.Statements.Raised` — the fact that comes back for a fact.

## Main results

* `ShapeSchema.Statements.mem_raised_iff` — the facts that come back.
* `ShapeSchema.Statements.same_raised` — their schema is the old one.
* `ShapeSchema.Schema.ofStatements_ofShapes_toShapes` — so is that of the shapes of a schema.
-/

namespace ShapeSchema

open Rdf (Graph)

namespace Statements

/-! ## Names and identifiers -/

/-- The names that the schema of some statements gives identifiers to: labels, names of constraints,
and the names of the relationships that became edges. -/
def mintedNames (options : SchemaOptions) (s : Statements) : List String :=
  (Schema.ofStatements options s).nodes.entries.flatMap
      (fun n => n.labels.keys ++ n.constraints.keys) ++
    (Schema.ofStatements options s).edges.entries.flatMap (·.constraints.keys) ++
    s.keptFacts.map RelationFact.name

/-- The identifier that a name is given. -/
def mint (s : Statements) (name : String) : Iri := ⟨s.space ++ name⟩

/-- The schema of some statements can be read back: the identifiers that its names are given are
valid and have these names, labels have valid shapes, and the name of every relationship that became
an edge is read back from the type of the edge. -/
structure Raisable (options : SchemaOptions) (s : Statements) : Prop where
  /-- Names are the local names of their identifiers. -/
  names : ∀ name ∈ s.mintedNames options, (s.mint name).localName = name
  /-- Identifiers are valid. -/
  iris : ∀ name ∈ s.mintedNames options, (s.mint name).IsValid
  /-- Shapes of labels have valid identifiers. -/
  shapes : ∀ n ∈ (Schema.ofStatements options s).nodes.entries, ∀ label ∈ n.labels.keys,
    Iri.IsValid ⟨s.space ++ label ++ "Shape"⟩
  /-- Types are undone. -/
  types : ∀ f ∈ s.keptFacts, Naming.lowerCamelCase (options.style.apply f.name) = f.name

variable {options : SchemaOptions} {s : Statements}

section Minted

/-- Labels and the names of constraints and relationships are minted. -/
private theorem subject_mem_mintedNames (hc : s.Closed) {c : ClassFact} (h : c ∈ s.classFacts) :
    c.subject ∈ s.mintedNames options := by
  refine List.mem_append_left _ (List.mem_append_left _ (List.mem_flatMap.2
    ⟨s.nodeOf c, Schema.nodeOf_mem options h, List.mem_append_left _ ?_⟩))
  rw [labels_nodeOf hc h]
  exact List.mem_singleton_self _

/-- The names of the constraints of nodes are minted. -/
private theorem node_mem_mintedNames {c : ClassFact} (h : c ∈ s.classFacts) {name : String}
    (hname : name ∈ (s.nodeOf c).constraints.keys) : name ∈ s.mintedNames options := by
  refine List.mem_append_left _ (List.mem_append_left _ (List.mem_flatMap.2 ?_))
  exact ⟨s.nodeOf c, Schema.nodeOf_mem options h, List.mem_append_right _ hname⟩

/-- So are the names of the properties of subjects, which are constraints of nodes. -/
private theorem ownName_mem_mintedNames (hc : s.Closed) {p : PropertyFact}
    (h : p ∈ s.ownPropertyFacts) :
    p.property.name ∈ s.mintedNames options := by
  obtain ⟨c, hcmem, hsubject⟩ := hc.properties p h
  have hentry : (p.property.name, p.property.constraint) ∈ (s.nodeOf c).constraints.entries :=
    mem_nodeOf_entries_iff.2 ⟨p, h, hsubject.symm, rfl⟩
  exact node_mem_mintedNames hcmem (List.mem_map_of_mem hentry)

end Minted

/-- The names of the constraints of edges are minted. -/
private theorem edge_mem_mintedNames {f : RelationFact} (h : f ∈ s.keptFacts) {name : String}
    (hname : name ∈ (f.constraints options s).keys) : name ∈ s.mintedNames options := by
  have hbody : f.edge options s "" ∈
      (Schema.ofStatements options s).edges.entries.map Schema.Edge.body := by
    rw [Schema.edges_ofStatements options s]
    exact List.mem_map_of_mem h
  obtain ⟨e, he, hebody⟩ := List.mem_map.1 hbody
  refine List.mem_append_left _ (List.mem_append_right _ (List.mem_flatMap.2 ⟨e, he, ?_⟩))
  have hconstraints : e.constraints = f.constraints options s := by
    have heq := congrArg Schema.Edge.constraints hebody
    rw [Schema.constraints_edge] at heq
    exact heq
  rw [hconstraints]
  exact hname

/-- The names of relationships that became edges are minted. -/
private theorem name_mem_mintedNames {f : RelationFact} (h : f ∈ s.keptFacts) :
    f.name ∈ s.mintedNames options :=
  List.mem_append_right _ (List.mem_map_of_mem h)

/-! ## Facts that come back -/

/-- The class of a label. -/
def raisedClass (s : Statements) (c : ClassFact) : ClassFact := ⟨c.subject, s.mint c.subject⟩

/-- The property of a constraint. -/
def raisedEntry (s : Statements) (entry : String × Constraint) : Property :=
  ⟨s.mint entry.1, entry.2.datatype.iri, entry.2.cardinality⟩

/-- The property of a node. -/
def raisedProperty (s : Statements) (p : PropertyFact) : PropertyFact :=
  ⟨p.subject, s.raisedEntry (p.property.name, p.property.constraint), none⟩

/-- The relationship of an edge. It states all the constraints of the edge itself. -/
def raisedRelation (options : SchemaOptions) (s : Statements) (f : RelationFact) :
    RelationFact where
  subject := f.subject
  predicate := s.mint f.name
  object := f.object
  target := s.mint f.object
  cardinality := f.cardinality
  properties := (f.constraints options s).entries.map s.raisedEntry

/-- The property of a constraint has its name and demands what it demands. -/
private theorem entry_raisedEntry {entry : String × Constraint}
    (h : (s.mint entry.1).localName = entry.1) :
    ((s.raisedEntry entry).name, (s.raisedEntry entry).constraint) = entry := by
  obtain ⟨name, datatype, cardinality⟩ := entry
  rw [Property.name, raisedEntry, h, Property.constraint, Datatype.ofIri_iri]

/-- The fact that comes back for a fact. -/
inductive Raised (options : SchemaOptions) (s : Statements) : Fact → Fact → Prop
  /-- A class comes back from the label of its node. -/
  | ofClass {c : ClassFact} (hc : c ∈ s.classFacts) :
      Raised options s (.ofClass c) (.ofClass (s.raisedClass c))
  /-- A property comes back from a constraint of a node. -/
  | ofProperty {p : PropertyFact} (hp : p ∈ s.ownPropertyFacts) :
      Raised options s (.ofProperty p) (.ofProperty (s.raisedProperty p))
  /-- A relationship comes back from an edge. -/
  | ofRelation {f : RelationFact} (hf : f ∈ s.keptFacts) :
      Raised options s (.ofRelation f) (.ofRelation (s.raisedRelation options f))

/-- Facts come back as one fact each. -/
theorem Raised.eq {a b c : Fact} (hb : Raised options s a b) (hc : Raised options s a c) :
    b = c := by
  cases hb <;> cases hc <;> rfl

/-- What comes back is one of the facts. -/
theorem Raised.mem {a b : Fact} (h : Raised options s a b) : a ∈ s.toList := by
  cases h with
  | ofClass hc => exact mem_classFacts_iff.1 hc
  | ofProperty hp => exact (mem_ownPropertyFacts_iff.1 hp).1
  | ofRelation hf => exact mem_relationFacts_iff.1 (of_mem_keptFacts hf).1

/-- The statements that come back from the schema of statements. -/
def raised (options : SchemaOptions) (s : Statements) : Statements :=
  (Schema.ofStatements options s).toStatements

/-- A fact comes back under its old identifier. -/
theorem Raised.id_eq (hc : s.Closed) (hr : s.Raisable options) {a b : Fact}
    (h : Raised options s a b) : b.id = a.id := by
  cases h with
  | ofClass hc => rfl
  | @ofProperty p hp =>
    have hname := hr.names _ (ownName_mem_mintedNames hc hp)
    have hown := (mem_ownPropertyFacts_iff.1 hp).2
    simp only [Fact.id, PropertyFact.name, raisedProperty, hown]
    rw [Property.name, raisedEntry, hname]
  | @ofRelation f hf =>
    have hname : (s.raisedRelation options f).name = f.name :=
      hr.names _ (name_mem_mintedNames hf)
    simp only [Fact.id, hname]
    rfl

/-! ## Reading a schema back -/

/-- The class of the node of a subject is named after it. -/
private theorem className_eq (hc : s.Closed) {subject : String} (h : s.HasSubject subject) :
    (Schema.ofStatements options s).className subject = subject := by
  obtain ⟨c, hcmem, rfl⟩ := h
  have hnode : (Schema.ofStatements options s).node? c.subject = some (s.nodeOf c) :=
    Registry.find?_of_mem (Schema.nodeOf_mem options hcmem)
  rw [Schema.className, hnode, Option.bind_some, Schema.Node.firstLabel?, labels_nodeOf hc hcmem]
  rfl

section Raise

variable (hc : s.Closed) (hr : s.Raisable options)

include hr

/-- A minted name gets the identifier that it was minted with. -/
private theorem iriOf?_eq {name : String} (h : name ∈ s.mintedNames options) :
    (Schema.ofStatements options s).iriOf? name = some (s.mint name) := by
  rw [Schema.iriOf?, Schema.space_ofStatements]
  exact if_pos (hr.iris name h)

/-- Constraints with minted names become properties. -/
private theorem propertiesOf_eq {constraints : Dict Constraint}
    (h : ∀ name ∈ constraints.keys, name ∈ s.mintedNames options) :
    (Schema.ofStatements options s).propertiesOf constraints =
      constraints.entries.map s.raisedEntry := by
  rw [Schema.propertiesOf, ← List.filterMap_eq_map]
  refine List.filterMap_congr fun e he => ?_
  obtain ⟨name, c⟩ := e
  dsimp only
  rw [iriOf?_eq hr (h name (List.mem_map_of_mem he))]
  rfl

/-- A relationship that comes back states the constraints of its edge. -/
private theorem nestedEntries_raisedRelation {f : RelationFact} (hf : f ∈ s.keptFacts) :
    (s.raisedRelation options f).nestedEntries = (f.constraints options s).entries := by
  have hentry : ∀ e ∈ (f.constraints options s).entries,
      ((s.raisedEntry e).name, (s.raisedEntry e).constraint) = e := by
    intro e he
    exact entry_raisedEntry (hr.names _ (edge_mem_mintedNames hf (List.mem_map_of_mem he)))
  rw [RelationFact.nestedEntries, raisedRelation, List.map_map]
  exact (List.map_congr_left hentry).trans (List.map_id _)

include hc

/-- The node of a class states its class, and a property for each constraint. -/
private theorem nodeFacts_nodeOf {c : ClassFact} (h : c ∈ s.classFacts) :
    (Schema.ofStatements options s).nodeFacts (s.nodeOf c) =
      .ofClass (s.raisedClass c) :: (s.nodeOf c).constraints.entries.map fun e =>
        .ofProperty ⟨c.subject, s.raisedEntry e, none⟩ := by
  have hlabel : (s.nodeOf c).firstLabel? = some c.subject := by
    rw [Schema.Node.firstLabel?, labels_nodeOf hc h]
    rfl
  rw [Schema.nodeFacts, hlabel, Option.bind_some,
    iriOf?_eq hr (subject_mem_mintedNames hc h),
    propertiesOf_eq hr fun name hname => node_mem_mintedNames h hname, List.map_map]
  rfl

/-- The edge of a relationship states the relationship again. -/
private theorem edgeFact?_edge {f : RelationFact} (hf : f ∈ s.keptFacts) :
    (Schema.ofStatements options s).edgeFact? (f.edge options s "") =
      some (.ofRelation (s.raisedRelation options f)) := by
  obtain ⟨hsource, htarget, -⟩ := Schema.source_edge options s f ""
  have hobject : s.HasSubject f.object := (of_mem_keptFacts hf).2.2
  have hminted : f.object ∈ s.mintedNames options := by
    obtain ⟨c, hcmem, hsubject⟩ := hobject
    rw [← hsubject]
    exact subject_mem_mintedNames hc hcmem
  have hname : Schema.relationName (f.edge options s "") = f.name := by
    rw [Schema.relationName, Schema.type_edge]
    exact hr.types f hf
  have hcardinality : (f.edge options s "").cardinality? = some f.cardinality :=
    Schema.Edge.cardinality?_setCardinality _ _
  rw [Schema.edgeFact?, hname, htarget, className_eq hc hobject,
    iriOf?_eq hr (name_mem_mintedNames hf), iriOf?_eq hr hminted, hsource, hcardinality,
    Schema.constraints_edge, propertiesOf_eq hr fun name hname => edge_mem_mintedNames hf hname]
  rfl

/-- The facts of the nodes of a schema. -/
private theorem mem_nodeFacts_iff {b : Fact} :
    b ∈ (Schema.ofStatements options s).nodes.entries.flatMap
        (Schema.ofStatements options s).nodeFacts ↔
      (∃ c ∈ s.classFacts, b = .ofClass (s.raisedClass c)) ∨
        ∃ p ∈ s.ownPropertyFacts, b = .ofProperty (s.raisedProperty p) := by
  rw [Schema.nodes_ofStatements, List.flatMap_map, List.mem_flatMap]
  constructor
  · rintro ⟨c, hcmem, hb⟩
    rw [nodeFacts_nodeOf hc hr hcmem] at hb
    rcases List.mem_cons.1 hb with rfl | hb
    · exact .inl ⟨c, hcmem, rfl⟩
    · obtain ⟨e, he, rfl⟩ := List.mem_map.1 hb
      obtain ⟨p, hp, hsubject, rfl⟩ := (mem_nodeOf_entries_iff).1 he
      rw [← hsubject]
      exact .inr ⟨p, hp, rfl⟩
  · rintro (⟨c, hcmem, rfl⟩ | ⟨p, hp, rfl⟩)
    · refine ⟨c, hcmem, ?_⟩
      rw [nodeFacts_nodeOf hc hr hcmem]
      exact List.mem_cons_self
    · obtain ⟨c, hcmem, hsubject⟩ := hc.properties p hp
      refine ⟨c, hcmem, ?_⟩
      rw [nodeFacts_nodeOf hc hr hcmem, raisedProperty, ← hsubject]
      refine List.mem_cons_of_mem _ (List.mem_map.2 ⟨_, ?_, rfl⟩)
      exact (mem_nodeOf_entries_iff).2 ⟨p, hp, hsubject.symm, rfl⟩

/-- The edges state the relationships that became edges, in their order. -/
private theorem edgeFacts_eq :
    (Schema.ofStatements options s).edges.entries.filterMap
        (Schema.ofStatements options s).edgeFact? =
      s.keptFacts.map fun f => .ofRelation (s.raisedRelation options f) := by
  have hbody : (Schema.ofStatements options s).edgeFact? =
      (Schema.ofStatements options s).edgeFact? ∘ Schema.Edge.body := rfl
  rw [hbody, ← List.filterMap_map, Schema.edges_ofStatements options s, List.filterMap_map,
    ← List.filterMap_eq_map]
  exact List.filterMap_congr fun f hf => edgeFact?_edge hc hr hf

/-- **Facts.** The facts that come back from the schema of statements are those that come back for
facts of the statements. -/
theorem mem_raised_iff {b : Fact} :
    b ∈ (s.raised options).toList ↔ ∃ a, Raised options s a b := by
  have hraw : ∀ b, b ∈ (Schema.ofStatements options s).nodes.entries.flatMap
        (Schema.ofStatements options s).nodeFacts ++
      (Schema.ofStatements options s).edges.entries.filterMap
        (Schema.ofStatements options s).edgeFact? ↔ ∃ a, Raised options s a b := by
    intro b
    rw [List.mem_append, mem_nodeFacts_iff hc hr, edgeFacts_eq hc hr, List.mem_map]
    constructor
    · rintro ((⟨c, hcmem, rfl⟩ | ⟨p, hp, rfl⟩) | ⟨f, hf, rfl⟩)
      · exact ⟨_, .ofClass hcmem⟩
      · exact ⟨_, .ofProperty hp⟩
      · exact ⟨_, .ofRelation hf⟩
    · rintro ⟨a, ha⟩
      cases ha with
      | ofClass hcmem => exact .inl (.inl ⟨_, hcmem, rfl⟩)
      | ofProperty hp => exact .inl (.inr ⟨_, hp, rfl⟩)
      | ofRelation hf => exact .inr ⟨_, hf, rfl⟩
  rw [← hraw]
  refine Registry.mem_ofList_iff ?_
  -- a fact is known by its identifier, because it comes back for the only fact that has it
  intro b₁ hb₁ b₂ hb₂ hid
  obtain ⟨a₁, ha₁⟩ := (hraw b₁).1 hb₁
  obtain ⟨a₂, ha₂⟩ := (hraw b₂).1 hb₂
  have haid : a₁.id = a₂.id := by
    rw [← ha₁.id_eq hc hr, ← ha₂.id_eq hc hr]
    exact hid
  rw [eq_of_id_eq ha₁.mem ha₂.mem haid] at ha₁
  exact ha₁.eq ha₂

/-! ## What the new statements say -/

/-- The classes that come back are those of the classes. -/
theorem mem_classFacts_raised_iff {d : ClassFact} :
    d ∈ (s.raised options).classFacts ↔ ∃ c ∈ s.classFacts, s.raisedClass c = d := by
  rw [mem_classFacts_iff, mem_raised_iff hc hr]
  constructor
  · rintro ⟨a, ha⟩
    cases ha with
    | ofClass hcmem => exact ⟨_, hcmem, rfl⟩
  · rintro ⟨c, hcmem, rfl⟩
    exact ⟨_, .ofClass hcmem⟩

/-- The properties that come back are those of the properties. -/
theorem mem_ownPropertyFacts_raised_iff {q : PropertyFact} :
    q ∈ (s.raised options).ownPropertyFacts ↔
      ∃ p ∈ s.ownPropertyFacts, s.raisedProperty p = q := by
  rw [mem_ownPropertyFacts_iff, mem_raised_iff hc hr]
  constructor
  · rintro ⟨⟨a, ha⟩, -⟩
    cases ha with
    | ofProperty hp => exact ⟨_, hp, rfl⟩
  · rintro ⟨p, hp, rfl⟩
    exact ⟨⟨_, .ofProperty hp⟩, rfl⟩

/-- The relationships that come back are those of the relationships that became edges. -/
theorem mem_relationFacts_raised_iff {g : RelationFact} :
    g ∈ (s.raised options).relationFacts ↔
      ∃ f ∈ s.keptFacts, s.raisedRelation options f = g := by
  rw [mem_relationFacts_iff, mem_raised_iff hc hr]
  constructor
  · rintro ⟨a, ha⟩
    cases ha with
    | ofRelation hf => exact ⟨_, hf, rfl⟩
  · rintro ⟨f, hf, rfl⟩
    exact ⟨_, .ofRelation hf⟩

/-- The same subjects stand for classes. -/
theorem hasSubject_raised_iff {subject : String} :
    (s.raised options).HasSubject subject ↔ s.HasSubject subject := by
  constructor
  · rintro ⟨d, hd, rfl⟩
    obtain ⟨c, hcmem, rfl⟩ := (mem_classFacts_raised_iff hc hr).1 hd
    exact ⟨c, hcmem, rfl⟩
  · rintro ⟨c, hcmem, rfl⟩
    exact ⟨_, (mem_classFacts_raised_iff hc hr).2 ⟨c, hcmem, rfl⟩, rfl⟩

/-- The local name of a minted class is its subject. -/
private theorem localName_mint {subject : String} (h : s.HasSubject subject) :
    (s.mint subject).localName = subject := by
  obtain ⟨c, hcmem, rfl⟩ := h
  exact hr.names _ (subject_mem_mintedNames hc hcmem)

/-- Statements that come back are closed. -/
theorem closed_raised : (s.raised options).Closed where
  classes := by
    intro d hd
    obtain ⟨c, hcmem, rfl⟩ := (mem_classFacts_raised_iff hc hr).1 hd
    exact (localName_mint hc hr ⟨c, hcmem, rfl⟩).symm
  properties := by
    intro q hq
    obtain ⟨p, hp, rfl⟩ := (mem_ownPropertyFacts_raised_iff hc hr).1 hq
    exact (hasSubject_raised_iff hc hr).2 (hc.properties p hp)
  relations := by
    intro g hg
    obtain ⟨f, hf, rfl⟩ := (mem_relationFacts_raised_iff hc hr).1 hg
    exact (hasSubject_raised_iff hc hr).2 (of_mem_keptFacts hf).2.1
  targets := by
    intro g hg
    obtain ⟨f, hf, rfl⟩ := (mem_relationFacts_raised_iff hc hr).1 hg
    exact (localName_mint hc hr (of_mem_keptFacts hf).2.2).symm

/-- The new classes have valid identifiers for their shapes. -/
theorem shapely_raised : (s.raised options).Shapely := by
  intro d hd
  obtain ⟨c, hcmem, rfl⟩ := (mem_classFacts_raised_iff hc hr).1 hd
  refine hr.shapes _ (Schema.nodeOf_mem options hcmem) c.subject ?_
  rw [labels_nodeOf hc hcmem]
  exact List.mem_singleton_self _

/-- Subjects have the constraints that they had. -/
private theorem sameEntries_raised : s.SameEntries (s.raised options) := by
  intro subject
  rw [List.perm_ext_iff_of_nodup (.of_map _ (s.nodup_entriesOf subject))
    (.of_map _ (nodup_entriesOf _ subject))]
  have hentry : ∀ p ∈ s.ownPropertyFacts,
      ((s.raisedProperty p).property.name, (s.raisedProperty p).property.constraint) =
        (p.property.name, p.property.constraint) := by
    intro p hp
    exact entry_raisedEntry (hr.names _ (ownName_mem_mintedNames hc hp))
  intro entry
  rw [mem_entriesOf_iff, mem_entriesOf_iff]
  constructor
  · rintro ⟨p, hp, hsubject, rfl⟩
    exact ⟨_, (mem_ownPropertyFacts_raised_iff hc hr).2 ⟨p, hp, rfl⟩, hsubject,
      (hentry p hp).symm⟩
  · rintro ⟨q, hq, hsubject, rfl⟩
    obtain ⟨p, hp, rfl⟩ := (mem_ownPropertyFacts_raised_iff hc hr).1 hq
    exact ⟨p, hp, hsubject, hentry p hp⟩

/-- **Edges.** The edge of a relationship that comes back is the old one. -/
private theorem edge_raisedRelation {f : RelationFact} (hf : f ∈ s.keptFacts) :
    (s.raisedRelation options f).edge options (s.raised options) "" = f.edge options s "" := by
  have hname : f.name = (s.raisedRelation options f).name :=
    (hr.names _ (name_mem_mintedNames hf)).symm
  have hnested : Dict.ofList (s.raisedRelation options f).nestedEntries =
      f.constraints options s := by
    rw [nestedEntries_raisedRelation hr hf, Dict.ofList_entries]
  exact Schema.edge_congr hname.symm rfl rfl rfl
    (RelationFact.constraints_again (sameEntries_raised hc hr) hname rfl hnested) ""

/-- Every class comes back once. -/
theorem classFacts_raised_perm :
    (s.raised options).classFacts.Perm (s.classFacts.map s.raisedClass) := by
  have hnodup : ((s.classFacts.map s.raisedClass).map (·.subject)).Nodup := by
    rw [List.map_map]
    exact s.nodup_subjects
  rw [List.perm_ext_iff_of_nodup (.of_map _ (nodup_subjects _))
    (.of_map _ hnodup)]
  intro d
  rw [mem_classFacts_raised_iff hc hr, List.mem_map]

/-- Every relationship that became an edge comes back once, and becomes an edge again. -/
theorem keptFacts_raised_perm :
    (s.raised options).keptFacts.Perm (s.keptFacts.map (s.raisedRelation options)) := by
  have hall : (s.raised options).keptFacts = (s.raised options).relationFacts := by
    refine List.filter_eq_self.2 fun g hg => decide_eq_true ?_
    obtain ⟨f, hf, rfl⟩ := (mem_relationFacts_raised_iff hc hr).1 hg
    obtain ⟨-, hsubject, hobject⟩ := of_mem_keptFacts hf
    exact ⟨(hasSubject_raised_iff hc hr).2 hsubject, (hasSubject_raised_iff hc hr).2 hobject⟩
  have hids : (s.keptFacts.map (s.raisedRelation options)).map
      (fun f => (Fact.ofRelation f).id) = s.keptFacts.map fun f => (Fact.ofRelation f).id := by
    rw [List.map_map]
    exact List.map_congr_left fun f hf => (Raised.ofRelation hf).id_eq hc hr
  have hnodup : ((s.keptFacts.map (s.raisedRelation options)).map
      fun f => (Fact.ofRelation f).id).Nodup := by
    rw [hids]
    exact s.nodup_relationIds.sublist (List.filter_sublist.map _)
  rw [hall, List.perm_ext_iff_of_nodup (.of_map _ (nodup_relationIds _))
    (.of_map _ hnodup)]
  intro g
  rw [mem_relationFacts_raised_iff hc hr, List.mem_map]

/-- **Schemas.** The schema of the new statements is the old one.

**Proof sketch.** Both are listed in closed form. Classes and relationships that became edges come
back once each, and each with the node or the edge that it had. -/
theorem same_raised :
    (Schema.ofStatements options (s.raised options)).Same (Schema.ofStatements options s) := by
  constructor
  · have hnodes : (s.classFacts.map s.raisedClass).map (s.raised options).nodeOf =
        s.classFacts.map s.nodeOf := by
      rw [List.map_map]
      refine List.map_congr_left fun c hcmem => ?_
      have hsubject : c.subject = (s.raisedClass c).subject := rfl
      have hlabel : c.object.localName = (s.raisedClass c).object.localName := by
        rw [← hc.classes c hcmem]
        exact (localName_mint hc hr ⟨c, hcmem, rfl⟩).symm
      exact (Schema.nodeOf_congr (sameEntries_raised hc hr) hsubject hlabel).symm
    rw [Schema.nodes_ofStatements, Schema.nodes_ofStatements options s, ← hnodes]
    exact (classFacts_raised_perm hc hr).map _
  · have hedges : (s.keptFacts.map (s.raisedRelation options)).map
        (·.edge options (s.raised options) "") = s.keptFacts.map (·.edge options s "") := by
      rw [List.map_map]
      exact List.map_congr_left fun f hf => edge_raisedRelation hc hr hf
    rw [Schema.edges_ofStatements, Schema.edges_ofStatements options s, ← hedges]
    exact (keptFacts_raised_perm hc hr).map _

/-- The properties of a relationship that comes back have distinct names. -/
theorem nodup_names_raised {g : RelationFact} (hg : g ∈ (s.raised options).keptFacts) :
    (g.properties.map Property.name).Nodup := by
  obtain ⟨f, hf, rfl⟩ := (mem_relationFacts_raised_iff hc hr).1 (of_mem_keptFacts hg).1
  have hkeys := (f.constraints options s).nodup_keys
  rw [Dict.keys, ← nestedEntries_raisedRelation hr hf, RelationFact.nestedEntries,
    List.map_map] at hkeys
  exact hkeys

/-- The schema that is made of the shapes of a schema is the old one. -/
private theorem same_ofShapes_toShapes (reading : ReadingOptions) {g : Graph}
    (hg : g.triples.Perm (Schema.ofStatements options s).toShapes.triples) :
    (Schema.ofStatements options (ofShapes reading g)).Same (Schema.ofStatements options s) := by
  have hcontent : (ofShapes reading g).content.Perm (s.raised options).content :=
    content_ofShapes_perm (closed_raised hc hr) (shapely_raised hc hr) reading hg
  have hread := Schema.same_ofStatements options hcontent.symm
    fun f hf => nodup_names_raised hc hr hf
  exact hread.symm.trans (same_raised hc hr)

end Raise

end Statements

/-! ## Schemas of graphs -/

namespace Schema

/-- **Round trip of schemas.** Take the schema of what any graph states. If its names and types can
be read back, then the shapes of the schema, listed in any order and read in any way, have the same
schema up to order and the identifiers of edges, whichever properties count more and whatever
relationships take up.

**Proof sketch.** Every fact comes back from the schema in a simpler form under its old identifier,
so no fact takes the place of another one. Nodes get the constraints that they had. A relationship
now states the constraints of its edge and takes up the same ones from subjects again, so it keeps
them all. The shapes are then those of closed statements, which are read back. -/
theorem ofStatements_ofShapes_toShapes (reading reading' : ReadingOptions)
    (options : SchemaOptions) (g : Graph)
    (hr : (Statements.ofShapes reading g).Raisable options) (g' : Graph)
    (hg : g'.triples.Perm
      (ofStatements options (Statements.ofShapes reading g)).toShapes.triples) :
    (ofStatements options (Statements.ofShapes reading' g')).Same
      (ofStatements options (Statements.ofShapes reading g)) := by
  have hc := Statements.closed_ofShapes reading g
  exact Statements.same_ofShapes_toShapes hc hr reading' hg

/-- The schema of some people comes back from its shapes, listed backwards. -/
theorem ofStatements_ofShapes_toShapes_people :
    (Statements.ofShapes {} Statements.people).Raisable {} ∧
      (ofStatements {} (Statements.ofShapes {}
        (ofStatements {} (Statements.ofShapes {} Statements.people)).toShapes.backwards)).Same
        (ofStatements {} (Statements.ofShapes {} Statements.people)) := by
  have hr : (Statements.ofShapes {} Statements.people).Raisable {} :=
    ⟨by decide +kernel, by decide +kernel, by decide +kernel, by decide +kernel⟩
  exact ⟨hr, ofStatements_ofShapes_toShapes {} {} {} Statements.people hr _
    (Graph.backwards_perm _)⟩

end Schema

end ShapeSchema
