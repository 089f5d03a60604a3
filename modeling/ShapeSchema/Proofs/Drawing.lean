import ShapeSchema.Proofs.DrawingParts
import ShapeSchema.Proofs.Store

/-!
# Drawings show their schemas

A drawing is read as a sequence of statements: attributes that are the same in all drawings, a
statement for each node, and a statement for each edge. The statements show what the schema has in
their places. Distinct nodes are declared under distinct names, and the ends of every edge are among
the nodes that are declared, because a store never has an edge whose ends are missing.

## Main definitions

* `ShapeSchema.Dot.Spells` — tokens that are read as statements.
* `ShapeSchema.Dot.Graph.Shows` — what it means that a drawing shows a stored schema.

## Main results

* `ShapeSchema.Dot.graph?_drawing` — the statements of a drawing.
* `ShapeSchema.Dot.table?_nodeItem`, `ShapeSchema.Dot.arrow?_edgeItem` — what they show.
* `ShapeSchema.Dot.drawing_run` — drawings of stored schemas after any operations.
-/

namespace ShapeSchema

namespace Dot

open Text

/-! ## Statements -/

/-- Tokens that are read as statements up to the brace that ends a drawing. -/
def Spells (tokens : List Token) (items : List Item) : Prop :=
  items.length < tokens.length ∧
    ∀ {fuel : Nat}, items.length ≤ fuel → readItems fuel tokens = some items

/-- There is no statement in front of the brace that ends a drawing. -/
theorem Spells.nil : Spells [.mark '\x7d'] [] :=
  ⟨Nat.zero_lt_one, fun {fuel} _ => by cases fuel <;> rfl⟩

/-- A further statement in front of the others. -/
theorem Spells.cons {piece tokens : List Token} {item : Item} {items : List Item}
    (hpiece : ∀ rest, readItem (piece ++ rest) = some (item, rest)) (h : Spells tokens items) :
    Spells (piece ++ tokens) (item :: items) := by
  have hlength : 0 < piece.length := by
    refine List.length_pos_iff.2 ?_
    rintro rfl
    cases hpiece []
  refine ⟨?_, fun {fuel} hfuel => ?_⟩
  · rw [List.length_cons, List.length_append]
    have hrest := h.1
    omega
  · rw [List.length_cons] at hfuel
    obtain ⟨fuel, rfl⟩ := Nat.exists_eq_add_one_of_ne_zero (Nat.ne_of_gt (Nat.zero_lt_of_lt hfuel))
    rw [readItems, hpiece]
    · show (readItems fuel tokens).bind _ = _
      rw [h.2 (Nat.le_of_succ_le_succ hfuel)]
      rfl
    · intro heq
      have hread := hpiece tokens
      rw [heq] at hread
      cases hread

/-- Statements are read one after the other. -/
theorem Spells.flatMap {γ : Type} {l : List γ} {f : γ → List Token} {g : γ → Item}
    (hpiece : ∀ x ∈ l, ∀ rest, readItem (f x ++ rest) = some (g x, rest))
    {tokens : List Token} {items : List Item} (h : Spells tokens items) :
    Spells (l.flatMap f ++ tokens) (l.map g ++ items) := by
  induction l with
  | nil => exact h
  | cons x l ih =>
    rw [List.forall_mem_cons] at hpiece
    rw [List.flatMap_cons, List.append_assoc]
    exact .cons hpiece.1 (ih hpiece.2)

/-- How a name is written. -/
def quotedId (id : String) : Id := .quoted (symbols id.toList)

/-- A name stands for itself. -/
theorem text_quotedId (id : String) : (quotedId id).text = id.toList := map_char_symbols id.toList

/-- The statement that a node is. -/
def nodeItem (number : Nat) (n : Schema.Node) : Item :=
  .node (quotedId n.id) [(.word "label".toList, .html (tableText number n))]

/-- The statement that an edge is. -/
def edgeItem (e : Schema.Edge) : Item :=
  .edge (quotedId e.source) (quotedId e.target) [(.word "label".toList, .quoted (edgeLabel e))]

/-- The attributes of all drawings: they go from left to right, and nodes and edges look alike. -/
def settings : List Item :=
  let font := (Id.word "fontname".toList, Id.quoted (symbols "Helvetica".toList))
  [.setting (.word "rankdir".toList) (.word "LR".toList),
    .defaults "node".toList [(.word "shape".toList, .word "none".toList), font],
    .defaults "edge".toList [font, (.word "fontsize".toList, .word "10".toList)]]

/-- The tokens of these attributes. -/
def settingsTokens : List (List Token) :=
  [[.id (.word "rankdir".toList), .mark '=', .id (.word "LR".toList), .mark ';'],
    [.id (.word "node".toList), .mark '[', .id (.word "shape".toList), .mark '=',
      .id (.word "none".toList), .mark ',', .id (.word "fontname".toList), .mark '=',
      .id (.quoted (symbols "Helvetica".toList)), .mark ']', .mark ';'],
    [.id (.word "edge".toList), .mark '[', .id (.word "fontname".toList), .mark '=',
      .id (.quoted (symbols "Helvetica".toList)), .mark ',', .id (.word "fontsize".toList),
      .mark '=', .id (.word "10".toList), .mark ']', .mark ';']]

/-- The attributes of all drawings are read in front of other statements. -/
theorem Spells.settings {tokens : List Token} {items : List Item} (h : Spells tokens items) :
    Spells (settingsTokens.flatten ++ tokens) (Dot.settings ++ items) := by
  have hread : ∀ x ∈ settingsTokens.zip Dot.settings, ∀ rest,
      readItem (x.1 ++ rest) = some (x.2, rest) :=
    List.forall_mem_cons.2 ⟨fun _ => rfl, List.forall_mem_cons.2 ⟨fun _ => rfl,
      List.forall_mem_singleton.2 fun _ => rfl⟩⟩
  exact flatMap hread h

/-! ## Drawings -/

/-- The lines before the nodes. -/
private theorem reads_headText (s : Schema) :
    transduce Place.next .between (headText s) =
      some ([.id (.word "digraph".toList), .id (.quoted (symbols s.name.toList)), .mark '\x7b'] ++
        settingsTokens.flatten, .between) := by
  have hopen : transduce Place.next .between "digraph \"".toList =
      some ([.id (.word "digraph".toList)], .quoted []) := by decide
  have hrest : "\" \x7b\n  rankdir=LR;\n".toList = '"' :: " \x7b\n  rankdir=LR;\n".toList := by
    decide
  have hlines : transduce Place.next .between (" \x7b\n  rankdir=LR;\n".toList ++
      ("  node [shape=none, fontname=\"Helvetica\"];\n".toList ++
        "  edge [fontname=\"Helvetica\", fontsize=10];\n".toList)) =
      some (.mark '\x7b' :: settingsTokens.flatten, .between) := by decide
  have hread := transduce_append (transduce_append hopen (reads_quotedText s.name []))
    (reads_quote hlines)
  unfold headText
  rw [hrest]
  simpa only [List.nil_append, List.cons_append, List.append_nil, List.append_assoc] using hread

/-- The tokens of a drawing. -/
theorem tokens?_drawing (s : Schema) :
    tokens? (drawing s).toList =
      some (.id (.word "digraph".toList) :: .id (.quoted (symbols s.name.toList)) ::
        .mark '\x7b' :: (settingsTokens.flatten ++
          (s.nodes.entries.zipIdx.flatMap (fun (n, number) => nodeTokens number n) ++
            (s.edges.entries.flatMap edgeTokens ++ [.mark '\x7d'])))) := by
  have hnodes : transduce Place.next .between (s.nodes.entries.mapIdx nodeText).flatten =
      some (s.nodes.entries.zipIdx.flatMap fun (n, number) => nodeTokens number n, .between) := by
    rw [List.mapIdx_eq_zipIdx_map]
    exact transduce_flatMap fun (n, number) _ => reads_nodeText number n
  have hedges : transduce Place.next .between (s.edges.entries.flatMap edgeText) =
      some (s.edges.entries.flatMap edgeTokens, .between) :=
    transduce_flatMap fun e _ => reads_edgeText e
  have hclose : transduce Place.next .between "\x7d\n".toList =
      some ([.mark '\x7d'], .between) := by decide
  have hread := transduce_append (transduce_append (transduce_append (reads_headText s) hnodes)
    hedges) hclose
  rw [tokens?, drawing, String.toList_ofList, hread]
  simp only [List.cons_append, List.nil_append, List.append_assoc]

/-- The statements of the nodes. -/
def nodeItems (s : Schema) : List Item :=
  s.nodes.entries.zipIdx.map fun (n, number) => nodeItem number n

/-- The statements of the edges. -/
def edgeItems (s : Schema) : List Item := s.edges.entries.map edgeItem

/-- **Statements.** A drawing is read as its attributes, a statement for each node, and a statement
for each edge. -/
theorem graph?_drawing (s : Schema) :
    graph? (drawing s) =
      some ⟨quotedId s.name, settings ++ nodeItems s ++ edgeItems s⟩ := by
  have hitems := ((Spells.nil.flatMap (l := s.edges.entries) (f := edgeTokens)
    (g := edgeItem) fun e _ _ => rfl).flatMap (l := s.nodes.entries.zipIdx)
      (f := fun (n, number) => nodeTokens number n)
      (g := fun (n, number) => nodeItem number n) fun x _ _ => rfl).settings
  rw [graph?, tokens?_drawing, Option.bind_some, readGraph_digraph,
    hitems.2 (Nat.le_of_lt hitems.1), List.append_nil, ← List.append_assoc]
  rfl

/-- What is made of the statements of the nodes alone is made of the nodes. -/
private theorem map_nodeItems {γ : Type} {f : Item → γ} {g : Schema.Node → γ} {s : Schema}
    (h : ∀ n ∈ s.nodes.entries, ∀ number, f (nodeItem number n) = g n) :
    (nodeItems s).map f = s.nodes.entries.map g := by
  have hnumbered : s.nodes.entries.map g = s.nodes.entries.zipIdx.map (g ∘ Prod.fst) := by
    rw [← List.map_map, List.zipIdx_map_fst]
  rw [hnumbered, nodeItems, List.map_map]
  exact List.map_congr_left fun (n, number) hn => h n (List.fst_mem_of_mem_zipIdx hn) number

/-- The table in the statement of a node. -/
theorem table?_nodeItem (number : Nat) (n : Schema.Node) :
    (nodeItem number n).table? =
      some (n.id.toList, [(title n).toList] ::
        n.constraints.entries.map fun (name, c) => [name.toList, constraintText c]) := by
  rw [nodeItem, Item.table?_node, cells?_tableText, Option.map_some, text_quotedId]

/-- The ends and the label in the statement of an edge. -/
theorem arrow?_edgeItem (e : Schema.Edge) :
    (edgeItem e).arrow? =
      some (e.source.toList, e.target.toList, (e.type.toList ++
        ' ' :: (e.cardinality?.getD .any).text.toList) ::
          e.constraints.entries.map fun (name, c) =>
            name.toList ++ (": ".toList ++ constraintText c)) := by
  rw [edgeItem, Item.arrow?_edge, text_quotedId, text_quotedId, lines_edgeLabel]

/-! ## Stored schemas -/

/-- What the table of a node shows: its title, and below it the name of each constraint with its
type and cardinality. -/
def rowsOf (n : Store.Node) : List (List (List Char)) :=
  [(title n.plain).toList] ::
    n.constraints.entries.map fun (_, c) => [c.name.toList, constraintText c.toConstraint]

/-- What the label of an edge shows: its type with its cardinality, and below it the name of each
constraint with its type and cardinality. -/
def linesOf (e : Store.Edge) : List (List Char) :=
  (e.type.toList ++ ' ' :: (e.plain.cardinality?.getD .any).text.toList) ::
    e.constraints.entries.map fun (_, c) =>
      c.name.toList ++ (": ".toList ++ constraintText c.toConstraint)

/-- A drawing shows a stored schema. -/
structure Graph.Shows (g : Graph) (S : Store) : Prop where
  /-- The drawing is called as the schema. -/
  name : g.name.text = S.name.toList
  /-- Behind the attributes of all drawings there is a statement for each node, which shows its
  identifier and its table, and behind these there is one for each edge, which shows its ends and
  its label. -/
  items : ∃ nodes edges, g.items = settings ++ nodes ++ edges ∧
    nodes.map Item.table? = S.nodes.rows.map (fun n => some (n.id.toList, rowsOf n)) ∧
    edges.map Item.arrow? =
      S.edges.rows.map fun e => some (e.source.toList, e.target.toList, linesOf e)
  /-- Distinct nodes are declared under distinct names. -/
  distinct : (g.items.flatMap Item.declared).Nodup
  /-- The ends of edges are declared. -/
  ends : ∀ id ∈ g.items.flatMap Item.ends, id ∈ g.items.flatMap Item.declared

variable {S : Store}

/-- What is kept under a name has this name. -/
private theorem name_of_mem {d : Dict Store.NamedConstraint} (h : Store.Named d) {name : String}
    {c : Store.NamedConstraint} (hc : (name, c) ∈ d.entries) : c.name = name :=
  h name c (Dict.get?_eq_some_iff.2 hc)

/-- So the rows are in the order of the names. -/
private theorem pairwise_names {d : Dict Store.NamedConstraint} (h : Store.Named d) :
    (d.entries.map fun (_, c) => c.name).Pairwise (· < ·) := by
  have hkeys : (d.entries.map fun (_, c) => c.name) = d.keys :=
    List.map_congr_left fun (name, c) hc => name_of_mem h hc
  rw [hkeys, Dict.keys, List.pairwise_map]
  exact d.sorted

/-- Nothing is lost with the names of constraints that are kept under their names. -/
private theorem map_plain {γ : Type} {d : Dict Store.NamedConstraint} (h : Store.Named d)
    (f : String → Constraint → γ) :
    ((d.map (·.toConstraint)).entries.map fun (name, c) => f name c) =
      d.entries.map fun (_, c) => f c.name c.toConstraint := by
  rw [Dict.map, List.map_map]
  exact List.map_congr_left fun (name, c) hc =>
    congrArg (f · c.toConstraint) (name_of_mem h hc).symm

/-- The rows of the table of a node, told from the schema that is stored. -/
private theorem rows_plain {n : Store.Node} (h : Store.Named n.constraints) :
    [(title n.plain).toList] :: n.plain.constraints.entries.map (fun (name, c) =>
      [name.toList, constraintText c]) = rowsOf n :=
  congrArg (_ :: ·) (map_plain h fun name c => [name.toList, constraintText c])

/-- The lines of the label of an edge, told from the schema that is stored. -/
private theorem lines_plain {e : Store.Edge} (h : Store.Named e.constraints) :
    (e.type.toList ++ ' ' :: (e.plain.cardinality?.getD .any).text.toList) ::
      e.plain.constraints.entries.map (fun (name, c) =>
        name.toList ++ (": ".toList ++ constraintText c)) = linesOf e :=
  congrArg (_ :: ·) (map_plain h fun name c => name.toList ++ (": ".toList ++ constraintText c))

/-- Distinct names are written differently. -/
theorem quotedId_injective : Function.Injective quotedId := by
  intro a b h
  have htext := congrArg Id.text h
  rw [text_quotedId, text_quotedId] at htext
  exact String.toList_inj.1 htext

/-- The nodes that a drawing declares. -/
private theorem flatMap_declared (s : Schema) :
    (settings ++ nodeItems s ++ edgeItems s).flatMap Item.declared =
      s.nodes.entries.map fun n => quotedId n.id := by
  have hsettings : settings.flatMap Item.declared = [] := rfl
  have hnodes : (nodeItems s).flatMap Item.declared =
      s.nodes.entries.map fun n => quotedId n.id := by
    rw [List.flatMap_def, map_nodeItems (g := fun n => [quotedId n.id]) fun _ _ _ => rfl,
      ← List.flatMap_def, List.map_eq_flatMap]
  have hedges : (edgeItems s).flatMap Item.declared = [] := by
    rw [edgeItems, List.flatMap_map]
    exact List.flatMap_eq_nil_iff.2 fun _ _ => rfl
  rw [List.flatMap_append, List.flatMap_append, hsettings, hnodes, hedges, List.nil_append,
    List.append_nil]

/-- The identifiers of the nodes are those that are stored. -/
private theorem ids_plain (h : S.WellFormed) :
    S.plain.nodes.entries.map (fun n => quotedId n.id) = S.nodes.keys.map quotedId := by
  rw [h.nodes_plain, Table.keys, List.map_map, List.map_map]
  rfl

/-- The ends of the edges of a drawing. -/
private theorem flatMap_ends (s : Schema) :
    (settings ++ nodeItems s ++ edgeItems s).flatMap Item.ends =
      s.edges.entries.flatMap fun e => [quotedId e.source, quotedId e.target] := by
  have hsettings : settings.flatMap Item.ends = [] := rfl
  have hnodes : (nodeItems s).flatMap Item.ends = [] := by
    rw [nodeItems, List.flatMap_map]
    exact List.flatMap_eq_nil_iff.2 fun _ _ => rfl
  rw [List.flatMap_append, List.flatMap_append, hsettings, hnodes, List.nil_append,
    List.nil_append, edgeItems, List.flatMap_map]
  rfl

/-- **Drawings** of stored schemas that are well-formed show them. -/
theorem shows_drawing (h : S.WellFormed) :
    Graph.Shows ⟨quotedId S.name, settings ++ nodeItems S.plain ++ edgeItems S.plain⟩ S where
  name := text_quotedId S.name
  items := by
    refine ⟨nodeItems S.plain, edgeItems S.plain, rfl, ?_, ?_⟩
    · rw [map_nodeItems fun n _ number => table?_nodeItem number n, h.nodes_plain, List.map_map]
      exact List.map_congr_left fun n hn =>
        congrArg (fun rows => some (n.id.toList, rows)) (rows_plain (h.nodeNames n hn))
    · rw [edgeItems, List.map_map, h.edges_plain, List.map_map]
      refine List.map_congr_left fun e he => (arrow?_edgeItem e.plain).trans ?_
      exact congrArg (fun lines => some (e.source.toList, e.target.toList, lines))
        (lines_plain (h.edgeNames e he))
  distinct := by
    rw [flatMap_declared, ids_plain h]
    exact h.nodes.nodup.map quotedId_injective
  ends := by
    rw [flatMap_declared, ids_plain h, flatMap_ends, h.edges_plain]
    intro id hid
    obtain ⟨_, hplain, hid⟩ := List.mem_flatMap.1 hid
    obtain ⟨e, he, rfl⟩ := List.mem_map.1 hplain
    obtain ⟨hsource, htarget⟩ := h.ends e he
    have hends := List.forall_mem_cons.2 ⟨List.mem_map_of_mem (f := quotedId) hsource,
      List.forall_mem_singleton.2 (List.mem_map_of_mem (f := quotedId) htarget)⟩
    exact hends id hid

/-- **Drawings.** After any operations on an empty store, the drawing of the schema that is stored
is read as a drawing that shows the schema, and the constraints of its nodes are in the order of
their names.

**Proof sketch.** Between quotation marks, every quotation mark of a text has a backslash in front
of it, and no backslash can be taken for one of those. In a cell, no angle bracket is left. So the
texts of nodes and edges are read from one end to the other, whatever is in them. Both ends of an
edge are nodes, since no operation takes nodes away. -/
theorem drawing_run (name space : String) (ops : List Store.Op) :
    ∃ S : Store, Store.run ⟨name, space, {}, {}⟩ ops = some S ∧
      (∃ g, graph? (drawing S.plain) = some g ∧ g.Shows S) ∧
      ∀ n ∈ S.nodes.rows, (n.constraints.entries.map fun (_, c) => c.name).Pairwise (· < ·) := by
  obtain ⟨S, hrun, hS, -⟩ := (Store.wellFormed_empty name space).run ops
  exact ⟨S, hrun, ⟨_, graph?_drawing S.plain, shows_drawing hS⟩,
    fun n hn => pairwise_names (hS.nodeNames n hn)⟩

end Dot

end ShapeSchema
