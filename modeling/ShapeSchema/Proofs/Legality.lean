import ShapeSchema.Proofs.Edges
import ShapeSchema.Proofs.ScriptLines

/-!
# Legal names in a script

Labels and keys come into a script as names, which are quoted unless they are plain, and variables
have a letter in front of what would begin with a digit. So they are legal, whatever a document
says. The type of a relationship is only cleaned character by character: nothing is put in front of
a digit, and an empty type stays empty.

The types of a schema are made of the names of relationships, and begin with the first letter or
digit of a name. They are legal if that is a letter. The name of a predicate may as well have a
digit first, or have neither letters nor digits.

## Main definitions

* `ShapeSchema.Naming.LetterFirst` — a name whose first letter or digit is a letter.

## Main results

* `ShapeSchema.Cypher.isLegal_of_statement?` — variables, labels and keys.
* `ShapeSchema.Cypher.isLegal_types_iff` — the types in the commands of a document.
* `ShapeSchema.Document.connects_ofSchema` — relationships in the document of a schema.
* `ShapeSchema.Cypher.isLegal_script_ofStatements` — the script for the schema of statements.
* `ShapeSchema.Cypher.types_script_modelFacts` — types that are not legal.
-/

namespace ShapeSchema

namespace Naming

/-- The first letter or digit of a name is a letter. -/
def LetterFirst (name : List Char) : Prop := ∃ c ∈ name.find? Char.isAlphanum, c.isDigit = false

/-- The type of such a name begins with a letter. -/
theorem letterFirst_iff (cutsWords : Bool) (name : List Char) :
    LetterFirst name ↔ ∃ c ∈ (typeOf cutsWords name).head?, c.isDigit = false := by
  rw [head?_typeOf, LetterFirst]
  constructor
  · rintro ⟨c, hc, hdigit⟩
    exact ⟨c.toUpper, Option.mem_map_of_mem Char.toUpper hc, (isDigit_toUpper c).trans hdigit⟩
  · rintro ⟨d, hd, hdigit⟩
    obtain ⟨c, hc, rfl⟩ := Option.map_eq_some_iff.1 hd
    exact ⟨c, hc, (isDigit_toUpper c).symm.trans hdigit⟩

end Naming

namespace Cypher

/-! ## Names in statements -/

/-- **Labels and keys** are legal, because they are quoted unless they are plain. -/
theorem isLegal_of (text : List Char) : (Name.of text).IsLegal := by
  unfold Name.of
  split
  · next h => exact (Name.isLegal_plain_iff text).2 h
  · trivial

/-- **Variables** are legal, because none begins with a digit. -/
private theorem isLegal_variableName (label : List Char) :
    (Name.plain (variableName label)).IsLegal := by
  have hchars := wordChars_variableName label
  unfold variableName at hchars ⊢
  simp only at hchars ⊢
  split at hchars
  · refine ⟨List.cons_ne_nil _ _, hchars, ?_⟩
    rintro _ ⟨⟩
    decide
  · next c name hname =>
    split at hchars
    · next hdigit =>
      rw [if_pos hdigit]
      refine ⟨List.cons_ne_nil _ _, hchars, ?_⟩
      rintro _ ⟨⟩
      decide
    · next hdigit =>
      rw [if_neg hdigit]
      refine ⟨hname ▸ List.cons_ne_nil c name, hchars, ?_⟩
      rw [hname]
      rintro _ ⟨⟩
      exact Bool.eq_false_iff.2 hdigit

/-- **Types** are legal if something comes first that is no digit. -/
theorem isLegal_typeName_iff (type : List Char) :
    (Name.plain (typeName type)).IsLegal ↔ ∃ c ∈ type.head?, c.isDigit = false := by
  have hdigit : ∀ c, (if Naming.isWordChar c then c.toUpper else '_').isDigit = c.isDigit := by
    intro c
    split
    · exact Naming.isDigit_toUpper c
    · next h =>
      simp only [Naming.isWordChar, Naming.isAlphanum_eq, Bool.or_eq_true, not_or,
        Bool.not_eq_true] at h
      exact h.1.2.symm
  cases type with
  | nil =>
    constructor
    · intro h
      exact absurd rfl h.1
    · rintro ⟨_, ⟨⟩, -⟩
  | cons c type =>
    constructor
    · intro h
      exact ⟨c, rfl, (hdigit c).symm.trans (h.2.2 _ rfl)⟩
    · rintro ⟨_, ⟨⟩, hc⟩
      refine ⟨List.cons_ne_nil _ _, wordChars_typeName (c :: type), ?_⟩
      rintro _ ⟨⟩
      exact (hdigit c).trans hc

/-- The keys of maps are legal names. -/
private theorem isLegal_of_mem_keys {entries : List (String × String)} {name : Name}
    (h : name ∈ (mapOf entries).map Prod.fst) : name.IsLegal := by
  rw [mapOf, List.map_map] at h
  obtain ⟨entry, -, rfl⟩ := List.mem_map.1 h
  exact isLegal_of entry.1.toList

/-- **Names.** Whatever a command says, the variables, labels and keys of its statement are
legal. -/
theorem isLegal_of_statement? {c : Command} {s : Statement} (h : c.statement? = some s) :
    ∀ name ∈ s.vars ++ s.labels ++ s.keys, name.IsLegal := by
  cases c with
  | node label colour types =>
    cases h
    intro name hname
    rcases List.mem_append.1 hname with hname | hname
    · rcases List.mem_cons.1 hname with rfl | hname
      · exact isLegal_variableName label.toList
      · obtain rfl := List.mem_singleton.1 hname
        exact isLegal_of label.toList
    · exact isLegal_of_mem_keys hname
  | relationship source type target types =>
    cases h
    have hvariables : ∀ name ∈ [Name.plain ['a'], .plain ['b'], .plain ['a'], .plain ['r'],
        .plain ['b']], name.IsLegal := by decide
    intro name hname
    rcases List.mem_append.1 hname with hname | hname
    · rcases List.mem_append.1 hname with hname | hname
      · exact hvariables name hname
      · have hlabels := List.forall_mem_cons.2
          ⟨isLegal_of source.toList, List.forall_mem_singleton.2 (isLegal_of target.toList)⟩
        exact hlabels name hname
    · exact isLegal_of_mem_keys hname
  | skipped source type target => cases h

/-- The types in the statements of a document are legal just if the type of every relationship
between its labels begins with something that is no digit. -/
theorem isLegal_types_iff (d : Document) :
    (∀ s ∈ (nodeCommands d ++ relationshipCommands d).filterMap Command.statement?,
        ∀ name ∈ s.types, name.IsLegal) ↔
      ∀ r ∈ d.relationships, d.Connects r →
        ∃ c ∈ r.type.toList.head?, c.isDigit = false := by
  constructor
  · intro h r hr hconnects
    -- The command may belong to another relationship, but that has the same type.
    have hlink : r.link ∈ (firstsBy Document.Relationship.link [] d.relationships).map (·.link) :=
      mem_map_firstsBy.2 ⟨List.mem_map_of_mem hr, List.not_mem_nil⟩
    obtain ⟨q, hq, hqr⟩ := List.mem_map.1 hlink
    have htype : q.type = r.type := congrArg (·.2.1) hqr
    have hconnects : d.Connects q := by
      have hsource : q.source = r.source := congrArg (·.1) hqr
      have htarget : q.target = r.target := congrArg (·.2.2) hqr
      rwa [Document.Connects, hsource, htarget]
    have hcommand : .relationship q.source q.type q.target (typesOf q.properties) ∈
        relationshipCommands d :=
      List.mem_map.2 ⟨q, hq, if_pos ((connects_iff d q).2 hconnects)⟩
    have hlegal := h _ (List.mem_filterMap.2 ⟨_, List.mem_append_right _ hcommand, rfl⟩) _
      List.mem_cons_self
    rw [← htype]
    exact (isLegal_typeName_iff q.type.toList).1 hlegal
  · intro h s hs name hname
    obtain ⟨c, hc, hcs⟩ := List.mem_filterMap.1 hs
    rcases List.mem_append.1 hc with hc | hc
    · obtain ⟨number, hnumber, rfl⟩ := List.mem_mapIdx.1 hc
      cases hcs
      cases hname
    · obtain ⟨r, hr, rfl⟩ := List.mem_map.1 hc
      split at hcs
      · next hconnects =>
        cases hcs
        obtain rfl := List.mem_singleton.1 hname
        exact (isLegal_typeName_iff r.type.toList).2
          (h r (mem_of_mem_firstsBy hr) ((connects_iff d r).1 hconnects))
      · cases hcs

end Cypher

/-! ## Documents of schemas -/

namespace Document

/-- The label for a node with a label is one of the document. -/
private theorem labelOf_mem_labels {S : Schema}
    (hlabels : ∀ n ∈ S.nodes.entries, n.firstLabel?.isSome)
    {id : String} (h : S.hasNode id = true) : labelOf S id ∈ (ofSchema S).labels := by
  obtain ⟨n, hn⟩ := Option.isSome_iff_exists.1 h
  have hmem := (Registry.mem_of_find? hn).1
  obtain ⟨label, hlabel⟩ := Option.isSome_iff_exists.1 (hlabels n hmem)
  have hnode : (Node.mk label (propertiesOf n.constraints)) ∈ (ofSchema S).nodes :=
    List.mem_filterMap.2 ⟨n, hmem, by rw [Node.ofNode?, hlabel]; rfl⟩
  have hid : labelOf S id = label := by
    rw [labelOf, Schema.node?, hn, Option.bind_some, hlabel, Option.getD_some]
  rw [hid]
  exact List.mem_map.2 ⟨_, hnode, rfl⟩

/-- **Relationships** of the document of a schema lead from label to label, if all nodes have labels
and all edges lead from node to node. -/
theorem connects_ofSchema {S : Schema} (hlabels : ∀ n ∈ S.nodes.entries, n.firstLabel?.isSome)
    (hends : ∀ e ∈ S.edges.entries, S.hasNode e.source ∧ S.hasNode e.target) :
    ∀ r ∈ (ofSchema S).relationships, (ofSchema S).Connects r := by
  intro r hr
  obtain ⟨e, he, rfl⟩ := List.mem_map.1 hr
  exact ⟨labelOf_mem_labels hlabels (hends e he).1, labelOf_mem_labels hlabels (hends e he).2⟩

variable {s : Statements}

/-- So they do in the document of the schema of some statements. -/
theorem connects_ofStatements (options : SchemaOptions) (s : Statements) :
    ∀ r ∈ (ofSchema (.ofStatements options s)).relationships,
      (ofSchema (.ofStatements options s)).Connects r := by
  refine connects_ofSchema ?_ ?_
  · intro n hn
    rw [Schema.nodes_ofStatements] at hn
    obtain ⟨c, -, rfl⟩ := List.mem_map.1 hn
    rfl
  · exact fun e he => Schema.hasNode_ends he

/-- The types of relationships in the document of the schema of some statements. -/
theorem types_ofStatements (options : SchemaOptions) (s : Statements) :
    (ofSchema (.ofStatements options s)).relationships.map Relationship.type =
      s.keptFacts.map fun f => options.style.apply f.name := by
  have htypes : ∀ S : Schema, (ofSchema S).relationships.map Relationship.type =
      (S.edges.entries.map Schema.Edge.body).map Schema.Edge.type := fun S => by
    rw [ofSchema, List.map_map, List.map_map]
    rfl
  rw [htypes, Schema.edges_ofStatements, List.map_map]
  exact List.map_congr_left fun f _ => Schema.type_edge options s f ""

end Document

/-! ## Scripts for statements -/

namespace Cypher

/-- The type for a name begins with a letter if the name does. -/
private theorem exists_head?_apply_iff (style : TypeStyle) (name : String) :
    (∃ c ∈ (style.apply name).toList.head?, c.isDigit = false) ↔
      Naming.LetterFirst name.toList := by
  cases style with
  | upperSnake =>
    rw [TypeStyle.apply, Naming.upperSnakeCase, String.toList_ofList]
    exact (Naming.letterFirst_iff true name.toList).symm
  | flat =>
    rw [TypeStyle.apply, Naming.flatUpperCase, String.toList_ofList]
    exact (Naming.letterFirst_iff false name.toList).symm

/-- **Legal names.** Insert any facts one after the other, make a schema of the statements in any
way, and write its document as a script. The script is read as statements. All their variables,
labels and keys are legal, and their types are legal just if the name of every relationship that
becomes an edge has a letter before its first digit.

**Proof sketch.** Every edge leads from label to label, so no command is a comment and each is a
statement. A type begins with the first letter or digit of the name of its relationship. -/
theorem isLegal_script_ofStatements (options : SchemaOptions) (name space : String)
    (facts : List Fact) :
    let s := Statements.ofList name space facts
    ∃ statements,
      statements? (script (Document.ofSchema (.ofStatements options s))) = some statements ∧
      (∀ t ∈ statements, ∀ n ∈ t.vars ++ t.labels ++ t.keys, n.IsLegal) ∧
      ((∀ t ∈ statements, ∀ n ∈ t.types, n.IsLegal) ↔
        ∀ f ∈ s.keptFacts, Naming.LetterFirst f.name.toList) := by
  intro s
  have hconnects := Document.connects_ofStatements options s
  refine ⟨_, statements?_script fun r hr hnot => absurd (hconnects r hr) hnot, ?_, ?_⟩
  · intro t ht
    obtain ⟨c, -, hc⟩ := List.mem_filterMap.1 ht
    exact isLegal_of_statement? hc
  · rw [isLegal_types_iff]
    have htypes := Document.types_ofStatements options s
    constructor
    · intro h f hf
      have hmem := List.mem_map_of_mem (f := fun f => options.style.apply f.name) hf
      rw [← htypes] at hmem
      obtain ⟨r, hr, htype⟩ := List.mem_map.1 hmem
      exact (exists_head?_apply_iff _ _).1 (htype ▸ h r hr (hconnects r hr))
    · intro h r hr _
      have hmem := List.mem_map_of_mem (f := Document.Relationship.type) hr
      rw [htypes] at hmem
      obtain ⟨f, hf, htype⟩ := List.mem_map.1 hmem
      rw [← htype]
      exact (exists_head?_apply_iff _ _).2 (h f hf)

/-- A relationship whose name has a digit first, and one whose name has neither letters nor
digits. -/
def modelFacts : List Fact :=
  let iri (name : String) : Iri := ⟨"http://example.org/" ++ name⟩
  let relation (name : String) : Fact :=
    .ofRelation (.toClass "Person" (iri name) (iri "Person") .any [])
  [.ofClass ⟨"Person", iri "Person"⟩, relation "3dModelOf", relation "--"]

/-- **Types are not guarded.** The one type begins with a digit, the other one is empty. -/
theorem types_script_modelFacts :
    let s := Statements.ofList "models" "http://example.org/" modelFacts
    let types := [Name.plain "3D_MODEL_OF".toList, .plain []]
    (statements? (script (Document.ofSchema (.ofStatements {} s)))).map
        (·.flatMap Statement.types) = some types ∧
      ∀ n ∈ types, ¬ n.IsLegal := by
  intro s types
  rw [statements?, lines?, toList_script]
  decide +kernel

end Cypher

end ShapeSchema
