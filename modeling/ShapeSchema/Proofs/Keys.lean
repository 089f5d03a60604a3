import ShapeSchema.Proofs.Dict
import ShapeSchema.Proofs.ScriptLines

/-!
# Keys in a script

A map in a script has keys that the writer adds itself, and behind them the names of the properties
that the document declares. Those names are distinct. From the properties of a node the names are
left out that are reserved, so that none of them meets a key of the writer.

There are two gaps. The writer gives a node a colour, but the key for it is not reserved. And it
gives a relationship a name, but leaves out no property of a relationship. So a key stands twice in
the map of a node with a property `color` and of a relationship with a property `name`, and in no
other map.

## Main definitions

* `ShapeSchema.Cypher.Statement.DistinctKeys` — no key stands twice in the map of a statement.

## Main results

* `ShapeSchema.Cypher.nodup_entries_node`, `ShapeSchema.Cypher.nodup_entries_relationship` — which
  declared names meet keys of the writer.
* `ShapeSchema.Cypher.distinctKeys_script` — the statements of a document whose keys are distinct.
* `ShapeSchema.Cypher.keys_script_paintedDocument` — a document with both gaps.
-/

namespace ShapeSchema.Cypher

/-- No key stands twice in the map of a statement, be it quoted or not. -/
def Statement.DistinctKeys (s : Statement) : Prop := (s.keys.map Name.text).Nodup

/-- The keys of a statement are the names that its command writes. -/
theorem distinctKeys_iff {c : Command} {s : Statement} (h : c.statement? = some s) :
    s.DistinctKeys ↔ (c.entries.map Prod.fst).Nodup := by
  have hkeys : s.keys.map Name.text = (c.entries.map Prod.fst).map String.toList := by
    have hmap : s.map = mapOf c.entries := by
      cases c <;> cases h <;> rfl
    rw [Statement.keys, hmap, mapOf, List.map_map, List.map_map, List.map_map]
    exact List.map_congr_left fun entry _ => Name.text_of entry.1.toList
  rw [Statement.DistinctKeys, hkeys]
  exact List.nodup_map_iff fun _ _ => String.toList_injective

/-- The types of properties are listed under their names. -/
private theorem map_fst_typesOf (properties : Dict Document.Property) :
    (typesOf properties).map Prod.fst = properties.keys := by
  rw [typesOf, List.map_map]
  rfl

/-- **Nodes.** Of the names that a node declares, only `color` meets a key of the writer. -/
theorem nodup_entries_node (label colour : String) (properties : Dict Document.Property) :
    ((Command.node label colour
        ((typesOf properties).filter fun (name, _) => !isReserved name)).entries.map
          Prod.fst).Nodup ↔ "color" ∉ properties.keys := by
  have hdeclared : (((typesOf properties).filter fun (name, _) => !isReserved name).map Prod.fst) =
      properties.keys.filter (!isReserved ·) := by
    rw [← map_fst_typesOf, List.filter_map]
    rfl
  have hown : ["name", "displayName", "label", "color"].Nodup := by decide
  have hreserved : ∀ name ∈ ["name", "displayName", "label", "color"],
      isReserved name = true ∨ name = "color" := by decide
  rw [Command.entries, List.map_append, hdeclared]
  show (["name", "displayName", "label", "color"] ++ _).Nodup ↔ _
  rw [List.nodup_append]
  constructor
  · rintro ⟨-, -, hdisjoint⟩ hcolor
    have hfree : "color" ∈ properties.keys.filter (!isReserved ·) :=
      List.mem_filter.2 ⟨hcolor, by decide⟩
    exact hdisjoint "color" (by decide) "color" hfree rfl
  · intro hcolor
    refine ⟨hown, properties.nodup_keys.filter _, ?_⟩
    rintro name hname _ hdeclared rfl
    obtain ⟨hmem, hfree⟩ := List.mem_filter.1 hdeclared
    rcases hreserved name hname with hname | rfl
    · rw [hname] at hfree
      cases hfree
    · exact hcolor hmem

/-- **Relationships.** Of the names that a relationship declares, only `name` meets the key of the
writer. -/
theorem nodup_entries_relationship (source type target : String)
    (properties : Dict Document.Property) :
    ((Command.relationship source type target (typesOf properties)).entries.map Prod.fst).Nodup ↔
      "name" ∉ properties.keys := by
  rw [Command.entries, List.map_cons, map_fst_typesOf, List.nodup_cons]
  exact and_iff_left properties.nodup_keys

/-! ## Statements of a document -/

/-- The statements of some commands correspond to those members of a list whose commands are no
comments. -/
private theorem forall₂_filterMap_statement? {α : Type} {p : α → Bool} {R : α → Statement → Prop}
    {l : List α} {commands : List Command}
    (h : List.Forall₂ (fun a c => if p a then ∃ s, c.statement? = some s ∧ R a s
      else c.statement? = none) l commands) :
    List.Forall₂ R (l.filter p) (commands.filterMap Command.statement?) := by
  induction h with
  | nil => exact .nil
  | @cons a c l commands hac _ ih =>
    cases ha : p a with
    | true =>
      rw [ha, if_pos rfl] at hac
      obtain ⟨s, hs, hr⟩ := hac
      rw [List.filter_cons_of_pos ha, List.filterMap_cons_some hs]
      exact .cons hr ih
    | false =>
      rw [ha, if_neg Bool.false_ne_true] at hac
      rw [List.filter_cons_of_neg (by simp [ha]), List.filterMap_cons_none hac]
      exact ih

/-- The nodes that have commands, and their statements. -/
private theorem forall₂_nodes (d : Document) :
    List.Forall₂ (fun n s => s.DistinctKeys ↔ "color" ∉ n.properties.keys)
      (firstsBy Document.Node.label [] d.nodes)
      ((nodeCommands d).filterMap Command.statement?) := by
  rw [← List.filter_true (firstsBy Document.Node.label [] d.nodes)]
  refine forall₂_filterMap_statement? ?_
  rw [nodeCommands, List.forall₂_iff_get]
  refine ⟨List.length_mapIdx.symm, fun i hn hc => ?_⟩
  simp only [List.get_eq_getElem, List.getElem_mapIdx]
  exact ⟨_, rfl, (distinctKeys_iff rfl).trans (nodup_entries_node _ _ _)⟩

/-- The relationships that have commands, and their statements. -/
private theorem forall₂_relationships (d : Document) :
    List.Forall₂ (fun r s => s.DistinctKeys ↔ "name" ∉ r.properties.keys)
      ((firstsBy Document.Relationship.link [] d.relationships).filter (d.Connects ·))
      ((relationshipCommands d).filterMap Command.statement?) := by
  refine forall₂_filterMap_statement? ?_
  rw [relationshipCommands, List.forall₂_map_right_iff]
  refine List.forall₂_same.2 fun r _ => ?_
  by_cases hr : d.Connects r
  · rw [decide_eq_true hr, if_pos rfl, if_pos ((connects_iff d r).2 hr)]
    exact ⟨_, rfl, (distinctKeys_iff rfl).trans (nodup_entries_relationship _ _ _ _)⟩
  · rw [decide_eq_false hr, if_neg Bool.false_ne_true, if_neg (mt (connects_iff d r).1 hr)]
    rfl

/-- **Keys.** Take any document. Its script has a statement for each label, and one for each triple
of source, type and target whose labels are there.

* The keys of the statement of a label are distinct just if its node declares no property `color`.
* The keys of the statement of a triple are distinct just if its relationship declares no property
  `name`.
* Every command but comments is read as its statement, and so is the whole script as all of them,
  unless a text in a comment has a line break. -/
theorem distinctKeys_script (d : Document) :
    ∃ nodes relationships : List Statement,
      List.Forall₂ (fun n s => s.DistinctKeys ↔ "color" ∉ n.properties.keys)
        (firstsBy Document.Node.label [] d.nodes) nodes ∧
      List.Forall₂ (fun r s => s.DistinctKeys ↔ "name" ∉ r.properties.keys)
        ((firstsBy Document.Relationship.link [] d.relationships).filter (d.Connects ·))
        relationships ∧
      List.Forall₂ (fun c s => readStatement c.text = some (s, []))
        ((nodeCommands d ++ relationshipCommands d).filter (!·.isComment))
        (nodes ++ relationships) ∧
      ((∀ r ∈ d.relationships, ¬ d.Connects r → r.OnOneLine) →
        statements? (script d) = some (nodes ++ relationships)) := by
  refine ⟨_, _, forall₂_nodes d, forall₂_relationships d, ?_, ?_⟩
  · rw [← List.filterMap_append]
    refine forall₂_filterMap_statement? (List.forall₂_same.2 fun c _ => ?_)
    have hread : ∀ {s : Statement}, c.statement? = some s → readStatement c.text = some (s, []) :=
      fun h => by simpa using Command.readStatement_text h []
    cases c with
    | node label colour types => exact ⟨_, rfl, hread rfl⟩
    | relationship source type target types => exact ⟨_, rfl, hread rfl⟩
    | skipped source type target => rfl
  · intro h
    rw [statements?_script h, List.filterMap_append]

/-- A car with a colour, and a relationship with a name. -/
def paintedDocument : Document where
  nodes := [{ label := "Car", properties := .ofList [("color", {})] }]
  relationships :=
    [{ type := "TOWS", source := "Car", target := "Car", properties := .ofList [("name", {})] }]

/-- **Two gaps.** The script of the document has two statements, and both have a key twice. -/
theorem keys_script_paintedDocument :
    (statements? (script paintedDocument)).map (·.map fun s =>
        s.keys.map fun key => String.ofList key.text) =
      some [["name", "displayName", "label", "color", "color"], ["name", "name"]] := by
  rw [statements?, lines?, toList_script]
  decide +kernel

end ShapeSchema.Cypher
