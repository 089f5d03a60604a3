import ShapeSchema.Proofs.Count
import ShapeSchema.Proofs.Identifiers
import ShapeSchema.Proofs.Lowering
import ShapeSchema.Proofs.Naming
import ShapeSchema.Schema.ToStatements

/-!
# Relationships that come back

On the way back from a schema every edge states a relationship between its ends, whose name is read
back from the type of the edge. Types do not tell how a name was written: `memberOf` and `member_of`
have the type `MEMBER_OF`, which is read as `memberOf`. So several edges may state relationships
with one name between the same nodes, and these have one identifier. The last of such edges comes
back and the others do not. Apart from that nothing is lost, unless colons in the identifiers of
nodes let relationships of other nodes or names have one identifier as well.

## Main definitions

* `ShapeSchema.Schema.relationOf` — the relationship that an edge states.
* `ShapeSchema.Schema.Edge.link` — the ends of an edge and the name that is read back.
* `ShapeSchema.Schema.Unambiguous` — the relationships of edges are known by their identifiers.

## Main results

* `ShapeSchema.Statements.relationFacts_ofList_perm` — the relationships among inserted facts.
* `ShapeSchema.Schema.relationFacts_toStatements_perm` — the relationships that a schema states.
* `ShapeSchema.Schema.topic_relationOf_eq_iff` — when edges state the same relationship.
* `ShapeSchema.Schema.relationFacts_toStatements` — which relationships come back from a schema.
* `ShapeSchema.Schema.relationFacts_memberFacts` — two relationships that merge.
-/

namespace ShapeSchema

/-! ## Relationships among facts -/

/-- The identifier of a relationship. -/
def RelationFact.id (f : RelationFact) : String := (Fact.ofRelation f).id

/-- **Relationships.** Of the relationships with one identifier that are inserted, the last one is
kept. -/
theorem Statements.relationFacts_ofList_perm (name space : String) (facts : List Fact) :
    (ofList name space facts).relationFacts.Perm
      (Registry.latest RelationFact.id (facts.filterMap Fact.relation?)) := by
  refine ((Registry.entries_ofList_perm facts).filterMap Fact.relation?).trans
    (.of_eq (Registry.filterMap_latest ?_ fun a _ b _ h => (Fact.kind_eq_of_id_eq h).2.2))
  intro a _ b _ f hf g hg
  rw [Fact.relation?_eq_some_iff.1 hf, Fact.relation?_eq_some_iff.1 hg]
  rfl

namespace Schema

variable {S : Schema}

/-! ## What an edge states -/

/-- The relationship that an edge states when its names have valid identifiers: it leads from the
source to the target and has the cardinality of the edge. -/
def relationOf (S : Schema) (e : Edge) : RelationFact where
  subject := e.source
  predicate := ⟨S.space ++ relationName e⟩
  object := e.target
  target := ⟨S.space ++ S.className e.target⟩
  cardinality := e.cardinality?.getD .any
  properties := S.propertiesOf e.constraints

/-- The ends of an edge and the name of the relationship that it states. -/
def Edge.link (e : Edge) : String × String × String := (e.source, relationName e, e.target)

/-- Relationships that the edges of a schema state are about the same thing if they have one
identifier. -/
def Unambiguous (S : Schema) : Prop :=
  ∀ d ∈ S.edges.entries, ∀ e ∈ S.edges.entries, (S.relationOf d).id = (S.relationOf e).id →
    (Fact.ofRelation (S.relationOf d)).topic = (Fact.ofRelation (S.relationOf e)).topic

/-- This is so if no end of an edge holds a colon. -/
private theorem unambiguous_of_ends
    (h : ∀ e ∈ S.edges.entries, ':' ∉ e.source.toList ∧ ':' ∉ e.target.toList) :
    S.Unambiguous := by
  have hlegible : ∀ e ∈ S.edges.entries, (Fact.ofRelation (S.relationOf e)).topic.Legible := h
  intro d hd e he hid
  exact (Fact.id_eq_iff (hlegible d hd) (hlegible e he)).1 hid

/-- A name about which nothing is reported has a valid identifier. -/
private theorem iriOf?_of_nameNotes {names : List String} (h : S.nameNotes names = [])
    {name : String} (hname : name ∈ names) : S.iriOf? name = some ⟨S.space ++ name⟩ := by
  rw [nameNotes, List.map_eq_nil_iff, List.filter_eq_nil_iff] at h
  have hiri := h name hname
  rw [iriOf?, Iri.ofText?] at hiri ⊢
  split at hiri
  · next hvalid => exact if_pos hvalid
  · simp at hiri

/-- An edge about which nothing is reported states its relationship. -/
private theorem edgeFact?_of_edgeNotes {e : Edge} (h : S.edgeNotes e = []) :
    S.edgeFact? e = some (.ofRelation (S.relationOf e)) := by
  have hnames := (List.append_eq_nil_iff.1 h).1
  rw [edgeFact?, iriOf?_of_nameNotes hnames List.mem_cons_self,
    iriOf?_of_nameNotes hnames (List.mem_cons_of_mem _ List.mem_cons_self)]
  rfl

/-- Nodes state no relationships. -/
private theorem relations_nodeFacts (S : Schema) (n : Node) :
    (S.nodeFacts n).filterMap Fact.relation? = [] := by
  rw [nodeFacts, List.filterMap_append, List.filterMap_map, List.filterMap_map,
    List.append_eq_nil_iff, List.filterMap_eq_nil_iff, List.filterMap_eq_nil_iff]
  exact ⟨fun _ _ => rfl, fun _ _ => rfl⟩

/-- **Way back.** The relationships that come back from a schema are stated by its edges. -/
theorem relationFacts_toStatements_perm (h : S.notesOfToStatements = []) :
    S.toStatements.relationFacts.Perm
      (Registry.latest RelationFact.id (S.edges.entries.map S.relationOf)) := by
  have hnotes := List.flatMap_eq_nil_iff.1 (List.append_eq_nil_iff.1 h).2
  have hedges : (S.edges.entries.filterMap S.edgeFact?).filterMap Fact.relation? =
      S.edges.entries.map S.relationOf := by
    rw [List.filterMap_filterMap, ← List.filterMap_eq_map]
    refine List.filterMap_congr fun e he => ?_
    rw [edgeFact?_of_edgeNotes (hnotes e he)]
    rfl
  have hnodes : (S.nodes.entries.flatMap S.nodeFacts).filterMap Fact.relation? = [] := by
    rw [List.filterMap_flatMap, List.flatMap_eq_nil_iff]
    exact fun n _ => relations_nodeFacts S n
  have hall := Statements.relationFacts_ofList_perm S.name S.space
    (S.nodes.entries.flatMap S.nodeFacts ++ S.edges.entries.filterMap S.edgeFact?)
  rw [List.filterMap_append, hnodes, List.nil_append, hedges] at hall
  exact hall

/-! ## Edges of statements -/

variable {options : SchemaOptions} {s : Statements}

/-- A type that is made from a name consists of letters, digits and underscores. -/
private theorem wordChars_apply (style : TypeStyle) (name : String) :
    ∀ c ∈ (style.apply name).toList, Naming.isWordChar c := by
  cases style with
  | upperSnake =>
    rw [TypeStyle.apply, Naming.upperSnakeCase, String.toList_ofList]
    exact Naming.wordChars_typeOf true _
  | flat =>
    rw [TypeStyle.apply, Naming.flatUpperCase, String.toList_ofList]
    exact Naming.wordChars_typeOf false _

/-- The name that is read back from an edge consists of letters and digits. -/
private theorem alphanum_relationName {e : Edge} (h : e ∈ (ofStatements options s).edges.entries) :
    ∀ c ∈ (relationName e).toList, c.isAlphanum := by
  obtain ⟨f, -, hf⟩ := exists_body_eq h
  have htype : e.type = options.style.apply f.name := by
    rw [← type_edge options s f "", ← hf]
    rfl
  rw [relationName, htype]
  exact Naming.alphanum_lowerCamelCase (wordChars_apply _ _)

/-- The cardinality of an edge is that of the relationship that it states. -/
private theorem cardinality_relationOf {e : Edge} (h : e ∈ (ofStatements options s).edges.entries) :
    e.cardinality? = some (S.relationOf e).cardinality := by
  obtain ⟨f, -, hf⟩ := exists_body_eq h
  have hcardinality : e.body.cardinality? = some f.cardinality := by
    rw [hf]
    exact Edge.cardinality?_setCardinality _ _
  have hsome : e.cardinality? = some f.cardinality := hcardinality
  rw [relationOf, hsome, Option.getD_some]

/-- Edges state relationships about the same thing just if they have the same ends and the same name
is read back from them. -/
theorem topic_relationOf_eq_iff {d e : Edge} (hd : d ∈ (ofStatements options s).edges.entries)
    (he : e ∈ (ofStatements options s).edges.entries) :
    (Fact.ofRelation (S.relationOf d)).topic = (Fact.ofRelation (S.relationOf e)).topic ↔
      d.link = e.link := by
  have hname : (S.relationOf d).name = (S.relationOf e).name ↔ relationName d = relationName e :=
    Naming.localName_append_inj (alphanum_relationName hd) (alphanum_relationName he) S.space
  rw [Fact.topic, Fact.topic, Topic.ofRelation.injEq, hname, Edge.link, Edge.link, Prod.mk.injEq,
    Prod.mk.injEq]
  rfl

/-- **Relationships.** Take the schema of any statements such that nothing is reported on the way
back and identifiers are not ambiguous. Then there comes back one relationship for all the edges
that have the same ends and from whose types the same name is read back, namely the one that the
last of them states, with its ends and its cardinality. So as many relationships come back as there
are edges just if no two edges agree in their ends and in this name.

**Proof sketch.** Every edge states a relationship, and of those with one identifier the last one is
kept. The name in the identifier is the local name of an identifier that ends in the letters and
digits read back from the type, so it is known by them. -/
theorem relationFacts_toStatements (options : SchemaOptions) (s : Statements)
    (hnotes : (ofStatements options s).notesOfToStatements = [])
    (hids : (ofStatements options s).Unambiguous) :
    let S := ofStatements options s
    S.toStatements.relationFacts.Perm
        ((Registry.latest Edge.link S.edges.entries).map S.relationOf) ∧
      (∀ e ∈ S.edges.entries, e.cardinality? = some (S.relationOf e).cardinality) ∧
      (S.toStatements.relationFacts.length = S.edges.size ↔
        (S.edges.entries.map Edge.link).Nodup) := by
  intro S
  have hlinks : ∀ d ∈ S.edges.entries, ∀ e ∈ S.edges.entries,
      d.link = e.link ↔ (S.relationOf d).id = (S.relationOf e).id := by
    intro d hd e he
    rw [← topic_relationOf_eq_iff (S := S) hd he]
    constructor
    · intro htopic
      rw [RelationFact.id, RelationFact.id, Fact.id_eq, Fact.id_eq, htopic]
    · exact hids d hd e he
  have hperm : S.toStatements.relationFacts.Perm
      ((Registry.latest Edge.link S.edges.entries).map S.relationOf) := by
    rw [← Registry.latest_map hlinks]
    exact relationFacts_toStatements_perm hnotes
  refine ⟨hperm, fun e he => cardinality_relationOf he, ?_⟩
  rw [hperm.length_eq, List.length_map]
  exact Registry.length_latest_eq_iff

/-- Persons are members of organizations in two spellings, and know each other. -/
def memberFacts : List Fact :=
  let iri (name : String) : Iri := ⟨"http://example.org/" ++ name⟩
  let relation (name object : String) (cardinality : Cardinality) : Fact :=
    .ofRelation (.toClass "Person" (iri name) (iri object) cardinality [])
  [.ofClass ⟨"Person", iri "Person"⟩, .ofClass ⟨"Organization", iri "Organization"⟩,
    relation "memberOf" "Organization" ⟨1, none⟩, relation "knows" "Person" .any,
    relation "member_of" "Organization" ⟨0, some 1⟩]

/-- The schema of `memberFacts`. -/
def memberSchema : Schema := ofStatements {} (.ofList "members" "http://example.org/" memberFacts)

/-- All its names have valid identifiers. -/
private theorem notes_memberSchema : memberSchema.notesOfToStatements = [] := by
  decide +kernel

/-- The second membership comes back, and so does acquaintance. -/
theorem relationFacts_toStatements_memberFacts :
    memberSchema.notesOfToStatements = [] ∧
      memberSchema.Unambiguous ∧
      memberSchema.toStatements.relationFacts.Perm
        ((Registry.latest Edge.link memberSchema.edges.entries).map memberSchema.relationOf) ∧
      (∀ e ∈ memberSchema.edges.entries,
        e.cardinality? = some (memberSchema.relationOf e).cardinality) ∧
      (memberSchema.toStatements.relationFacts.length = memberSchema.edges.size ↔
        (memberSchema.edges.entries.map Edge.link).Nodup) := by
  have hids : memberSchema.Unambiguous := unambiguous_of_ends (by decide +kernel)
  exact ⟨notes_memberSchema, hids, relationFacts_toStatements {} _ notes_memberSchema hids⟩

/-- The first membership does not come back, because both have the type `MEMBER_OF`. -/
theorem relationFacts_memberFacts :
    (¬ ∀ (options : SchemaOptions) (s : Statements),
        (ofStatements options s).notesOfToStatements = [] →
          (ofStatements options s).toStatements.relationFacts.length =
            (ofStatements options s).edges.size) ∧
      memberSchema.notesOfToStatements = [] ∧
      memberSchema.edges.entries.map (·.type) = ["MEMBER_OF", "KNOWS", "MEMBER_OF"] ∧
      memberSchema.toStatements.relationFacts.map (fun f => (f.name, f.cardinality)) =
        [("memberOf", ⟨0, some 1⟩), ("knows", .any)] := by
  have hedges : memberSchema.edges.entries.map (·.type) = ["MEMBER_OF", "KNOWS", "MEMBER_OF"] := by
    decide +kernel
  have hfacts : memberSchema.toStatements.relationFacts.map (fun f => (f.name, f.cardinality)) =
      [("memberOf", ⟨0, some 1⟩), ("knows", .any)] := by
    decide +kernel
  refine ⟨fun h => ?_, notes_memberSchema, hedges, hfacts⟩
  have hthree := congrArg List.length hedges
  have htwo := congrArg List.length hfacts
  rw [List.length_map] at hthree htwo
  have hlength := h {} (.ofList "members" "http://example.org/" memberFacts) notes_memberSchema
  exact absurd (htwo.symm.trans (hlength.trans hthree)) (by decide)

end Schema

end ShapeSchema
