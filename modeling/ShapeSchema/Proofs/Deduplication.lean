import ShapeSchema.Proofs.Legality

/-!
# Scripts are documents without repetitions

A script has one statement for each label of a document, in the order in which the labels occur
first, and what follows the names of its own are the properties of the first node with the label.
For each triple of source, type and target it has one statement as well, with the properties of the
first relationship with this triple, or a comment if there is no node for one of the two labels.
There is nothing else in it but the comments that are in all scripts, and those that say that there
are no nodes or no relationships.

The node of a label has names of its own, and leaves out properties with such names.

## Main definitions

* `ShapeSchema.Document.propertiesOfLabel`, `ShapeSchema.Document.propertiesOfLink` — the properties
  of the first node with a label, and of the first relationship with a triple.
* `ShapeSchema.Cypher.lines` — what the lines of a script are meant to be.

## Main results

* `ShapeSchema.Cypher.map_firstsBy`, `ShapeSchema.Cypher.find?_of_mem_firstsBy` — members of a list
  that are the first with their key.
* `ShapeSchema.Cypher.framed_commands` — the lines of the commands of a document.
* `ShapeSchema.Cypher.script_isDeduplicated` — the script of any document, and the one for the
  schema of any statements.
-/

namespace ShapeSchema

namespace Document

/-- The properties of the first node with a label. -/
def propertiesOfLabel (d : Document) (label : String) : Dict Property :=
  ((d.node? label).map Node.properties).getD {}

/-- The properties of the first relationship with a source, type and target. -/
def propertiesOfLink (d : Document) (link : String × String × String) : Dict Property :=
  ((d.relationships.find? (·.link = link)).map Relationship.properties).getD {}

end Document

namespace Cypher

/-! ## The first members with their keys -/

section
variable {α κ : Type} [DecidableEq κ] {key : α → κ}

/-- The keys of the first members with their keys are all keys that have not been seen, without
repetitions. -/
theorem map_firstsBy [BEq κ] [LawfulBEq κ] (seen : List κ) (l : List α) :
    (firstsBy key seen l).map key = ((l.map key).filter (· ∉ seen)).eraseDups := by
  induction l generalizing seen with
  | nil => rfl
  | cons a l ih =>
    rw [firstsBy, List.map_cons]
    split
    · next hseen => rw [ih, List.filter_cons_of_neg (by simpa using hseen)]
    · next hseen =>
      have hfilter : (l.map key).filter (· ∉ key a :: seen) =
          ((l.map key).filter (· ∉ seen)).filter (fun k => !k == key a) := by
        rw [List.filter_filter]
        refine List.filter_congr fun k _ => ?_
        rw [Bool.eq_iff_iff]
        simp
      rw [List.map_cons, ih, List.filter_cons_of_pos (by simpa using hseen), List.eraseDups_cons,
        hfilter]

/-- If none has been seen, they are all keys without repetitions. -/
theorem map_firstsBy_nil [BEq κ] [LawfulBEq κ] (l : List α) :
    (firstsBy key [] l).map key = (l.map key).eraseDups := by
  rw [map_firstsBy, List.filter_eq_self.2 (by simp)]

/-- The first member with its key is found by this key. -/
theorem find?_of_mem_firstsBy {seen : List κ} {l : List α} {a : α} (h : a ∈ firstsBy key seen l) :
    l.find? (key · = key a) = some a := by
  induction l generalizing seen with
  | nil => cases h
  | cons b l ih =>
    have hunseen : key a ∉ seen := (mem_map_firstsBy.1 (List.mem_map_of_mem h)).2
    rw [firstsBy] at h
    split at h
    · next hseen =>
      have hne : key b ≠ key a := fun heq => hunseen (heq ▸ hseen)
      rw [List.find?_cons_of_neg (by simpa using hne), ih h]
    · rcases List.mem_cons.1 h with rfl | h
      · exact List.find?_cons_of_pos (by simp)
      · have hrest : key a ∉ key b :: seen := (mem_map_firstsBy.1 (List.mem_map_of_mem h)).2
        have hne : key b ≠ key a := fun heq => hrest (heq ▸ List.mem_cons_self)
        rw [List.find?_cons_of_neg (by simpa using hne), ih h]

end

/-! ## Lines -/

/-- The statement for the label with a number: behind the names of its own come the properties of
the first node with this label, but for those with such names. -/
def labelLine (d : Document) (number : Nat) (label : String) : Line :=
  .statement (.ofNode label
    ([("name", label), ("displayName", label), ("label", label),
        ("color", Palette.colour number)] ++
      (typesOf (d.propertiesOfLabel label)).filter fun (name, _) => !isReserved name))

/-- The statement for a source, type and target, with the properties of the first relationship with
them, or a comment if one of the labels is not there. -/
def linkLine (d : Document) (link : String × String × String) : Line :=
  let (source, type, target) := link
  if source ∈ d.labels ∧ target ∈ d.labels then
    .statement (.ofRelationship source type target
      (("name", type) :: typesOf (d.propertiesOfLink link)))
  else .comment (skippedComment source type target)

/-- What the lines of a script are meant to be: one for each label and one for each source, type and
target, in the order in which they occur first. -/
def lines (d : Document) : List Line :=
  framed (d.labels.eraseDups.mapIdx (labelLine d))
    ((d.relationships.map Document.Relationship.link).eraseDups.map (linkLine d))

/-- The commands for nodes are one for each label, in the order of first occurrence. -/
private theorem map_line_nodeCommands (d : Document) :
    (nodeCommands d).map Command.line = d.labels.eraseDups.mapIdx (labelLine d) := by
  have hproperties : ∀ n ∈ firstsBy Document.Node.label [] d.nodes,
      d.propertiesOfLabel n.label = n.properties := by
    intro n hn
    rw [Document.propertiesOfLabel, Document.node?, find?_of_mem_firstsBy hn]
    rfl
  rw [Document.labels, ← map_firstsBy_nil, nodeCommands]
  refine List.ext_getElem (by simp) fun i hi _ => ?_
  have hlength : i < (firstsBy Document.Node.label [] d.nodes).length := by simpa using hi
  simp only [List.getElem_map, List.getElem_mapIdx]
  rw [labelLine, hproperties _ (List.getElem_mem hlength)]
  rfl

/-- The commands for relationships are one for each source, type and target, in the order of first
occurrence. -/
private theorem map_line_relationshipCommands (d : Document) :
    (relationshipCommands d).map Command.line =
      (d.relationships.map Document.Relationship.link).eraseDups.map (linkLine d) := by
  rw [← map_firstsBy_nil, relationshipCommands, List.map_map, List.map_map]
  refine List.map_congr_left fun r hr => ?_
  have hfirst : d.relationships.find? (·.link = r.link) = some r := find?_of_mem_firstsBy hr
  have hproperties : d.propertiesOfLink r.link = r.properties := by
    rw [Document.propertiesOfLink, hfirst]
    rfl
  rw [Function.comp_apply, Function.comp_apply, linkLine, hproperties]
  by_cases hconnects : d.Connects r
  · rw [if_pos ((connects_iff d r).2 hconnects)]
    exact (if_pos hconnects).symm
  · rw [if_neg (mt (connects_iff d r).1 hconnects)]
    exact (if_neg hconnects).symm

/-- The lines of the commands of a document are what they are meant to be. -/
theorem framed_commands (d : Document) :
    framed ((nodeCommands d).map Command.line) ((relationshipCommands d).map Command.line) =
      lines d := by
  rw [map_line_nodeCommands, map_line_relationshipCommands, lines]

/-! ## Scripts -/

/-- No fixed line says that a label is not there. -/
private theorem skipped_notMem_fixedLines (source type target : String) :
    .comment (skippedComment source type target) ∉ fixedLines := by
  have hother : ∀ line ∈ fixedLines, ∀ text ∈ line.comment?, text[1]? ≠ some 'S' := by
    decide
  exact fun hmem => hother _ hmem _ rfl rfl

/-- **Scripts without repetitions.**

* The script of any document is its lines: one for each label and for each source, type and target,
  in the order of their first occurrences, and the comments that are in all scripts. It is read as
  these lines, unless a text in a comment has a line break.
* Insert any facts one after the other, make a schema of the statements in any way, and write its
  document as a script. It is read as its lines, and none of them says that a label is not there. -/
theorem script_isDeduplicated :
    (∀ d : Document, Writes (lines d) (script d).toList ∧
      ((∀ r ∈ d.relationships, ¬ d.Connects r → r.OnOneLine) →
        lines? (script d) = some (lines d))) ∧
    ∀ (options : SchemaOptions) (name space : String) (facts : List Fact),
      let d := Document.ofSchema (.ofStatements options (.ofList name space facts))
      lines? (script d) = some (lines d) ∧
        ∀ source type target, .comment (skippedComment source type target) ∉ lines d := by
  refine ⟨fun d => ⟨framed_commands d ▸ writes_script d, fun h => ?_⟩, ?_⟩
  · rw [lines?_script h, framed_commands]
  · intro options name space facts d
    have hconnects : ∀ r ∈ d.relationships, d.Connects r :=
      Document.connects_ofStatements options (.ofList name space facts)
    constructor
    · rw [lines?_script fun r hr hnot => absurd (hconnects r hr) hnot, framed_commands]
    · intro source type target hmem
      rcases mem_of_mem_framed hmem with hfixed | hnode | hlink
      · exact skipped_notMem_fixedLines source type target hfixed
      · obtain ⟨number, hnumber, heq⟩ := List.mem_mapIdx.1 hnode
        cases heq
      · obtain ⟨link, hlink, heq⟩ := List.mem_map.1 hlink
        obtain ⟨r, hr, rfl⟩ := List.mem_map.1 (List.mem_eraseDups.1 hlink)
        have hline : linkLine d r.link = .statement _ := if_pos (hconnects r hr)
        rw [hline] at heq
        cases heq

/-- A person with an identifier, a name that begins with an underscore, and another one. -/
def reservedDocument : Document where
  nodes :=
    [{ label := "Person"
       properties := .ofList [("id", {}), ("_internal", {}), ("givenName", {})] }]

/-- **Names of the node of a label.** Two of the three properties of the only node are not in the
statement for its label. -/
theorem keys_script_reservedDocument :
    (statements? (script reservedDocument)).map (·.map fun s =>
        s.keys.map fun key => String.ofList key.text) =
      some [["name", "displayName", "label", "color", "givenName"]] ∧
    (reservedDocument.nodes.map fun n => n.properties.keys) =
      [["_internal", "givenName", "id"]] := by
  rw [statements?, lines?, toList_script]
  decide +kernel

end Cypher

end ShapeSchema
