import ShapeSchema.Dot.Reader
import ShapeSchema.Proofs.Count

/-!
# The parts of a drawing

In the text of a node or an edge, the texts of a schema stand between quotation marks and in the
cells of a table. Wherever they stand, they are read as what they are. Between quotation marks a
backslash stands in front of each quotation mark and each backslash, so that nothing ends the text,
and no escape in it is taken for the end of a line. In cells there are no angle brackets, so that
there are no tags but those of the table. Hence each node and each edge has the same tokens, but
for the texts in them.

## Main definitions

* `ShapeSchema.Dot.symbols` — how a text is written between quotation marks.
* `ShapeSchema.Dot.Inert`, `ShapeSchema.Dot.Flat`, `ShapeSchema.Dot.Balanced` — texts that mean
  nothing, texts without tags, and texts in which tags are complete.
* `ShapeSchema.Dot.nodeTokens`, `ShapeSchema.Dot.edgeTokens` — the tokens of a node and an edge.

## Main results

* `ShapeSchema.Dot.reads_quotedText` — texts between quotation marks.
* `ShapeSchema.Dot.unescape?_cellText`, `ShapeSchema.Dot.cells?_tableText` — cells and tables.
* `ShapeSchema.Dot.lines_edgeLabel` — labels of edges.
* `ShapeSchema.Dot.reads_nodeText`, `ShapeSchema.Dot.reads_edgeText` — nodes and edges.
-/

namespace ShapeSchema.Dot

open Text

/-! ## Texts between quotation marks -/

/-- How a character of a text is written between quotation marks. -/
def symbol (c : Char) : Symbol := if c = '\\' ∨ c = '"' then .escaped c else .plain c

/-- How a text is written there. -/
def symbols (text : List Char) : List Symbol := text.map symbol

/-- What is written for a text stands for the text. -/
theorem map_char_symbols (text : List Char) : (symbols text).map Symbol.char = text := by
  rw [symbols, List.map_map]
  refine List.map_id'' (fun c => ?_) text
  unfold Function.comp symbol
  split <;> rfl

/-- **Quotation marks.** No character of a text ends it, and each is read as what it is. -/
theorem reads_quotedText (text : String) (held : List Symbol) :
    transduce Place.next (.quoted held) (quotedText text) =
      some ([], .quoted (held ++ symbols text.toList)) := by
  rw [symbols, List.map_eq_flatMap]
  refine transduce_collect (fun c _ held => ?_) held
  unfold symbol
  split
  · next h =>
    rcases h with rfl | rfl <;> rfl
  · next h =>
    rw [not_or] at h
    exact transduce_cons (Place.next_quoted h.1 h.2 held) rfl

/-- A text without characters that mean something else somewhere in a drawing. -/
def Inert (text : List Char) : Prop := ∀ c ∈ text, c ∉ ['\\', '"', '<', '>', '&']

instance : DecidablePred Inert := fun text => List.decidableBAll _ text

/-- Texts that mean nothing mean nothing behind each other. -/
theorem Inert.append {a b : List Char} (ha : Inert a) (hb : Inert b) : Inert (a ++ b) :=
  List.forall_mem_append.2 ⟨ha, hb⟩

/-- No character of such a text means anything. -/
theorem Inert.ne {text : List Char} (h : Inert text) {c d : Char} (hc : c ∈ text)
    (hd : d ∈ ['\\', '"', '<', '>', '&']) : c ≠ d := by
  rintro rfl
  exact h c hc hd

/-- Between quotation marks, such a text is read as it is. -/
private theorem reads_inert {text : List Char} (h : Inert text) (held : List Symbol) :
    transduce Place.next (.quoted held) text = some ([], .quoted (held ++ text.map .plain)) :=
  transduce_each
    (fun _ hc held => Place.next_quoted (h.ne hc (by decide)) (h.ne hc (by decide)) held) held

/-- Bounds are written in digits, dots and brackets. -/
private theorem inert_text (c : Cardinality) : Inert c.text.toList := by
  have hcount : ∀ n : Count, Inert n.text.toList := by
    intro n ch hch
    rw [Count.text, Nat.repr_eq_ofList_toDigits, String.toList_ofList] at hch
    have hdigit : ch.isDigit = true := isDigit_of_mem_toDigits hch
    simp only [List.mem_cons, List.not_mem_nil, or_false]
    rintro (rfl | rfl | rfl | rfl | rfl) <;> exact absurd hdigit (by decide)
  have hmax : Inert ((c.max.map Count.text).getD "*").toList := by
    cases c.max with
    | none => decide
    | some n => exact hcount n
  have hopen : Inert "[".toList := by decide
  have hdots : Inert "..".toList := by decide
  have hclose : Inert "]".toList := by decide
  simp only [Cardinality.text, String.toList_append]
  exact (((hopen.append (hcount c.min)).append hdots).append hmax).append hclose

/-- So the type and the cardinality of a property are such a text. -/
private theorem inert_constraintText (c : Constraint) : Inert (constraintText c) := by
  have hname : Inert c.datatype.name.toList := by cases c.datatype <;> decide
  have hblank : Inert " ".toList := by decide
  simp only [constraintText, String.toList_append]
  exact (hname.append hblank).append (inert_text c.cardinality)

/-! ## Cells -/

/-- A cell is read as the text that was written into it. -/
theorem unescape?_cellText (text : String) : unescape? (cellText text) = some text.toList := by
  have hread : transduce nextEntity none (cellText text) =
      some (text.toList.flatMap fun c => [c], none) := by
    refine transduce_flatMap fun c _ => ?_
    unfold cellChar
    split
    · next h => subst h; rfl
    split
    · next h => subst h; rfl
    split
    · next h => subst h; rfl
    split
    · next h => subst h; rfl
    · next h _ _ _ => exact transduce_cons (nextEntity_of_ne h) rfl
  rw [unescape?, hread, List.flatMap_singleton']

/-- There are no entities in such a text. -/
private theorem unescape?_inert {text : List Char} (h : Inert text) :
    unescape? text = some text := by
  have hread : transduce nextEntity none (text.flatMap fun c => [c]) =
      some (text.flatMap fun c => [c], none) := by
    refine transduce_flatMap fun c hc => ?_
    have hother : c ≠ '&' := h.ne hc (by decide)
    exact transduce_cons (nextEntity_of_ne hother) rfl
  rw [List.flatMap_singleton'] at hread
  rw [unescape?, hread]

/-- A text without angle brackets. -/
def Flat (text : List Char) : Prop := ∀ c ∈ text, c ≠ '<' ∧ c ≠ '>'

instance : DecidablePred Flat := fun text => List.decidableBAll _ text

/-- Nor are there tags. -/
theorem Inert.flat {text : List Char} (h : Inert text) : Flat text := fun c hc =>
  ⟨h.ne hc (by decide), h.ne hc (by decide)⟩

/-- What is written into a cell has no angle brackets: entities stand for them. -/
private theorem flat_cellText (text : String) : Flat (cellText text) := by
  have hchar : ∀ c, Flat (cellChar c) := by
    intro c
    unfold cellChar
    split
    · decide
    split
    · decide
    split
    · decide
    split
    · decide
    · next _ hopen hclose _ => exact List.forall_mem_singleton.2 ⟨hopen, hclose⟩
  intro d hd
  obtain ⟨c, -, hd⟩ := List.mem_flatMap.1 hd
  exact hchar c d hd

/-- Texts without angle brackets have none behind each other. -/
theorem Flat.append {a b : List Char} (ha : Flat a) (hb : Flat b) : Flat (a ++ b) :=
  List.forall_mem_append.2 ⟨ha, hb⟩

/-- A tag with its brackets. -/
def tagText (t : List Char) : List Char := '<' :: (t ++ ['>'])

/-- A text between angle brackets that has as many brackets that open as ones that close, in the
right order. -/
def Balanced (text : List Char) : Prop :=
  ∀ depth held, transduce Place.next (.html depth held) text = some ([], .html depth (held ++ text))

/-- The empty text has no brackets. -/
theorem Balanced.nil : Balanced [] := fun depth held => by rw [List.append_nil]; rfl

/-- Texts in which tags are complete can stand behind each other. -/
theorem Balanced.append {a b : List Char} (ha : Balanced a) (hb : Balanced b) :
    Balanced (a ++ b) := fun depth held => by
  rw [← List.append_assoc]
  exact transduce_append (ha depth held) (hb depth (held ++ a))

/-- So can any number of them. -/
theorem Balanced.flatten {l : List (List Char)} (h : ∀ a ∈ l, Balanced a) :
    Balanced l.flatten := by
  induction l with
  | nil => exact .nil
  | cons a l ih =>
    rw [List.forall_mem_cons] at h
    exact h.1.append (ih h.2)

/-- A text without tags has none that is not complete. -/
theorem Flat.balanced {text : List Char} (h : Flat text) : Balanced text := by
  intro depth held
  have hread := transduce_each (s := Place.html depth) (g := id)
    (fun c hc held => Place.next_html (h c hc).1 (h c hc).2 depth held) held
  rwa [List.map_id] at hread

/-- A tag without brackets inside is complete. -/
private theorem balanced_tagText {t : List Char} (h : Flat t) : Balanced (tagText t) := by
  intro depth held
  have hopen : transduce Place.next (.html depth held) ['<'] =
      some ([], .html (depth + 1) (held ++ ['<'])) := rfl
  have hclose : transduce Place.next (.html (depth + 1) (held ++ ['<'] ++ t)) ['>'] =
      some ([], .html depth (held ++ ['<'] ++ t ++ ['>'])) := rfl
  have hread := transduce_append hopen (transduce_append (h.balanced _ _) hclose)
  simpa [tagText] using hread

/-! ## Tables -/

/-- The tag of the cell with the title of a node. -/
def titleTag (number : Nat) : List Char :=
  "TD".toList ++ (" COLSPAN=\"2\" BGCOLOR=\"".toList ++
    ((Palette.colour number).toList ++ "\"".toList))

/-- The tag of the cells below it. -/
def cellTag : List Char := "TD".toList ++ " ALIGN=\"LEFT\"".toList

/-- The beginning of the table of a node. -/
def titleText (number : Nat) (n : Schema.Node) : List Char :=
  [tagText ("TABLE".toList ++
      " BORDER=\"0\" CELLBORDER=\"1\" CELLSPACING=\"0\" CELLPADDING=\"4\"".toList),
    tagText "TR".toList, tagText (titleTag number), tagText "B".toList, cellText (title n),
    tagText "/B".toList, tagText "/TD".toList, tagText "/TR".toList].flatten

/-- The table of a node. -/
def tableText (number : Nat) (n : Schema.Node) : List Char :=
  titleText number n ++ n.constraints.entries.flatMap (fun (name, c) => rowText name c) ++
    tagText "/TABLE".toList

/-- The text of a node, cut into the parts that are read one after the other. -/
private theorem nodeText_eq (number : Nat) (n : Schema.Node) :
    nodeText number n =
      ["  \"".toList, quotedText n.id, '"' :: " [label=<".toList, tableText number n,
        '>' :: "];\n".toList].flatten := by
  have hopen :
      "\" [label=<<TABLE BORDER=\"0\" CELLBORDER=\"1\" CELLSPACING=\"0\" CELLPADDING=\"4\">".toList =
        '"' :: " [label=<".toList ++ tagText ("TABLE".toList ++
          " BORDER=\"0\" CELLBORDER=\"1\" CELLSPACING=\"0\" CELLPADDING=\"4\"".toList) := by
    decide
  have hcolour : ∀ colour : List Char, "<TR><TD COLSPAN=\"2\" BGCOLOR=\"".toList ++
      (colour ++ "\"><B>".toList) = tagText "TR".toList ++ (tagText ("TD".toList ++
        (" COLSPAN=\"2\" BGCOLOR=\"".toList ++ (colour ++ "\"".toList))) ++
          tagText "B".toList) := by
    have hfront : "<TR><TD COLSPAN=\"2\" BGCOLOR=\"".toList = tagText "TR".toList ++
        '<' :: ("TD".toList ++ " COLSPAN=\"2\" BGCOLOR=\"".toList) := by decide
    have hrest : "\"><B>".toList = "\"".toList ++ '>' :: tagText "B".toList := by decide
    intro colour
    rw [hfront, hrest]
    unfold tagText
    simp only [List.append_assoc, List.cons_append, List.nil_append]
  have htitle : "</B></TD></TR>".toList =
      tagText "/B".toList ++ (tagText "/TD".toList ++ tagText "/TR".toList) := by decide
  have hclose : "</TABLE>>];\n".toList = tagText "/TABLE".toList ++ '>' :: "];\n".toList := by
    decide
  unfold nodeText tableText titleText titleTag
  simp only [hopen, hcolour, htitle, hclose, List.flatten_cons, List.flatten_nil, List.append_nil,
    List.append_assoc, List.cons_append]

/-- The row of a property, cut into the parts that are read one after the other. -/
private theorem rowText_eq (name : String) (c : Constraint) :
    rowText name c =
      [tagText "TR".toList, tagText cellTag, cellText name, tagText "/TD".toList,
        tagText cellTag, constraintText c, tagText "/TD".toList, tagText "/TR".toList].flatten := by
  have hopen : "<TR><TD ALIGN=\"LEFT\">".toList = tagText "TR".toList ++ tagText cellTag := by
    decide
  have hnext : "</TD><TD ALIGN=\"LEFT\">".toList = tagText "/TD".toList ++ tagText cellTag := by
    decide
  have hclose : "</TD></TR>".toList = tagText "/TD".toList ++ tagText "/TR".toList := by
    decide
  unfold rowText
  simp only [hopen, hnext, hclose, List.flatten_cons, List.flatten_nil, List.append_nil,
    List.append_assoc]

/-- The tag of a cell has no brackets inside. -/
private theorem flat_cellTag : Flat cellTag := by decide

/-- The tags in the row of a property are complete. -/
private theorem balanced_rowText (name : String) (c : Constraint) : Balanced (rowText name c) := by
  have hcell : Balanced (tagText cellTag) := balanced_tagText flat_cellTag
  have hcellEnd : Balanced (tagText "/TD".toList) := balanced_tagText (by decide)
  rw [rowText_eq]
  refine Balanced.flatten ?_
  simp only [List.forall_mem_cons]
  exact ⟨balanced_tagText (by decide), hcell, (flat_cellText name).balanced, hcellEnd, hcell,
    (inert_constraintText c).flat.balanced, hcellEnd, balanced_tagText (by decide), nofun⟩

/-- Colours are written in digits and letters behind a number sign. -/
private theorem inert_colour (number : Nat) : Inert (Palette.colour number).toList := by
  have hcolours : ∀ colour ∈ Palette.colours, Inert colour.toList := by decide
  unfold Palette.colour
  cases h : Palette.colours[number % Palette.colours.length]? with
  | none => decide
  | some colour => exact hcolours colour (List.mem_of_getElem? h)

/-- The tag of a title has no brackets inside. -/
private theorem flat_titleTag (number : Nat) : Flat (titleTag number) := by
  have hname : Flat "TD".toList := by decide
  have hattributes : Flat " COLSPAN=\"2\" BGCOLOR=\"".toList := by decide
  have hquote : Flat "\"".toList := by decide
  exact hname.append (hattributes.append ((inert_colour number).flat.append hquote))

/-- The tags in the table of a node are complete. -/
private theorem balanced_tableText (number : Nat) (n : Schema.Node) :
    Balanced (tableText number n) := by
  have htitle : Balanced (titleText number n) := by
    refine Balanced.flatten ?_
    simp only [List.forall_mem_cons]
    exact ⟨balanced_tagText (by decide), balanced_tagText (by decide),
      balanced_tagText (flat_titleTag number), balanced_tagText (by decide),
      (flat_cellText _).balanced, balanced_tagText (by decide), balanced_tagText (by decide),
      balanced_tagText (by decide), nofun⟩
  have hrows : Balanced (n.constraints.entries.flatMap fun (name, c) => rowText name c) := by
    refine Balanced.flatten fun row hrow => ?_
    obtain ⟨⟨name, c⟩, -, rfl⟩ := List.mem_map.1 hrow
    exact balanced_rowText name c
  exact (htitle.append hrows).append (balanced_tagText (by decide))

/-! ### Rows and cells -/

/-- A tag is read as what it does. -/
private theorem reads_tagText {t : List Char} (ht : Flat t) {level level' : Level}
    {rows : List (List (List Char))} (h : level.tag t = some (rows, level')) :
    transduce nextCell (level, none) (tagText t) = some (rows, level', none) := by
  have hopen : nextCell (level, none) '<' = some ([], level, some []) := rfl
  have htag := transduce_each (s := fun t => (level, some t)) (g := id)
    (fun c hc held => nextCell_tag (ht c hc).2 level held) []
  have hclose : transduce nextCell (level, some t) ['>'] = some (rows, level', none) := by
    rw [transduce, nextCell, if_pos rfl, h]
    simp [transduce]
  rw [List.map_id, List.nil_append] at htag
  exact transduce_cons hopen (transduce_append htag hclose)

/-- A text without tags is put into its cell. -/
private theorem reads_flat {text : List Char} (h : Flat text) (cells : List (List Char)) :
    transduce nextCell (.cell cells [], none) text = some ([], .cell cells text, none) := by
  have hread := transduce_each (s := fun t => (Level.cell cells t, none)) (g := id)
    (fun c hc held => nextCell_data (h c hc).1 cells held) []
  rwa [List.map_id, List.nil_append] at hread

/-- Tags for bold letters make no difference. -/
private theorem reads_bold {t : List Char} (h : t = "B".toList ∨ t = "/B".toList)
    (cells : List (List Char)) (text : List Char) :
    transduce nextCell (.cell cells text, none) (tagText t) =
      some ([], .cell cells text, none) := by
  have hends : t ≠ "/TD".toList := by
    rcases h with rfl | rfl <;> decide
  have hflat : Flat t := by
    rcases h with rfl | rfl <;> decide
  exact reads_tagText hflat (by rw [Level.tag, if_neg hends, if_pos h])

/-- **Cells.** A cell is added to those that have been read of its row. -/
private theorem reads_cell {t inner text value : List Char} {cells : List (List Char)} (ht : Flat t)
    (hname : tagName t = "TD".toList)
    (hinner : transduce nextCell (.cell cells [], none) inner = some ([], .cell cells text, none))
    (hvalue : unescape? text = some value) :
    transduce nextCell (.row cells, none) (tagText t ++ (inner ++ tagText "/TD".toList)) =
      some ([], .row (cells ++ [value]), none) := by
  have hopen : Level.tag t (.row cells) = some ([], .cell cells []) := by
    rw [Level.tag, if_pos hname]
  have hclose : Level.tag "/TD".toList (.cell cells text) = some ([], .row (cells ++ [value])) := by
    rw [Level.tag, if_pos rfl, hvalue]
    rfl
  exact transduce_append (reads_tagText ht hopen)
    (transduce_append hinner (reads_tagText (by decide) hclose))

/-- A row of one cell or more. -/
private theorem reads_row {cells : List (List Char)} {text : List Char}
    (h : transduce nextCell (.row [], none) text = some ([], .row cells, none)) :
    transduce nextCell (.table, none) (tagText "TR".toList ++ (text ++ tagText "/TR".toList)) =
      some ([cells], .table, none) := by
  have hopen : Level.tag "TR".toList .table = some ([], .row []) := by decide
  have hclose : Level.tag "/TR".toList (.row cells) = some ([cells], .table) := by
    rw [Level.tag, if_neg (by decide), if_pos rfl]
  exact transduce_append (reads_tagText (by decide) hopen)
    (transduce_append h (reads_tagText (by decide) hclose))

/-- The row of a property has its name in one cell, and its type and cardinality in another. -/
private theorem reads_rowText (name : String) (c : Constraint) :
    transduce nextCell (.table, none) (rowText name c) =
      some ([[name.toList, constraintText c]], .table, none) := by
  have hname : tagName cellTag = "TD".toList := by decide
  have hfirst := reads_cell flat_cellTag hname (reads_flat (flat_cellText name) [])
    (unescape?_cellText name)
  have hsecond := reads_cell flat_cellTag hname
    (reads_flat (inert_constraintText c).flat [name.toList])
    (unescape?_inert (inert_constraintText c))
  have hrow := reads_row (transduce_append hfirst hsecond)
  rw [rowText_eq]
  simpa only [List.flatten_cons, List.flatten_nil, List.append_nil, List.append_assoc,
    List.cons_append, List.nil_append] using hrow

/-- The title is in a cell of its own, in bold letters. -/
private theorem reads_titleText (number : Nat) (n : Schema.Node) :
    transduce nextCell (.front, none) (titleText number n) =
      some ([[(title n).toList]], .table, none) := by
  have htable : Level.tag ("TABLE".toList ++
      " BORDER=\"0\" CELLBORDER=\"1\" CELLSPACING=\"0\" CELLPADDING=\"4\"".toList) .front =
        some ([], .table) := by decide
  have hname : tagName (titleTag number) = "TD".toList := by
    have hblank : " COLSPAN=\"2\" BGCOLOR=\"".toList =
        ' ' :: "COLSPAN=\"2\" BGCOLOR=\"".toList := by decide
    rw [titleTag, hblank]
    rfl
  have hinner := transduce_append (reads_bold (.inl rfl) [] [])
    (transduce_append (reads_flat (flat_cellText (title n)) [])
      (reads_bold (.inr rfl) [] (cellText (title n))))
  have hrow := reads_row (reads_cell (flat_titleTag number) hname hinner
    (unescape?_cellText (title n)))
  have hread := transduce_append (reads_tagText (by decide) htable) hrow
  unfold titleText
  simpa only [List.flatten_cons, List.flatten_nil, List.append_nil, List.append_assoc,
    List.nil_append] using hread

/-- **Tables.** The table of a node is read as its title, and a row for each property. -/
theorem cells?_tableText (number : Nat) (n : Schema.Node) :
    cells? (tableText number n) = some ([(title n).toList] ::
      n.constraints.entries.map fun (name, c) => [name.toList, constraintText c]) := by
  have hrows : transduce nextCell (.table, none)
      (n.constraints.entries.flatMap fun (name, c) => rowText name c) =
        some (n.constraints.entries.flatMap fun (name, c) => [[name.toList, constraintText c]],
          .table, none) :=
    transduce_flatMap fun (name, c) _ => reads_rowText name c
  have hclose : Level.tag "/TABLE".toList .table = some ([], .behind) := by decide
  have hread := transduce_append (transduce_append (reads_titleText number n) hrows)
    (reads_tagText (by decide) hclose)
  rw [cells?, tableText, hread, List.map_eq_flatMap]
  simp

/-! ## Labels of edges -/

/-- No text has a break in what is written for it. -/
private theorem break_notMem_symbols (text : List Char) : .escaped 'n' ∉ symbols text := by
  intro h
  obtain ⟨c, -, hc⟩ := List.mem_map.1 h
  unfold symbol at hc
  split at hc
  · next hspecial =>
    cases hc
    exact absurd hspecial (by decide)
  · cases hc

/-- Plain characters are no breaks. -/
private theorem break_notMem_plain (text : List Char) : .escaped 'n' ∉ text.map Symbol.plain := by
  intro h
  obtain ⟨c, -, hc⟩ := List.mem_map.1 h
  cases hc

/-- What stands in front of a label without a break belongs to its first line. -/
private theorem lines_append {front rest : List Symbol} (h : .escaped 'n' ∉ front)
    {line : List Char} {more : List (List Char)} (hrest : lines rest = line :: more) :
    lines (front ++ rest) = (front.map Symbol.char ++ line) :: more := by
  induction front with
  | nil => exact hrest
  | cons s front ih =>
    rw [List.mem_cons, not_or] at h
    exact lines_cons (Ne.symm h.1) (ih h.2)

/-- Rows that begin with a break are the further lines of a label. -/
private theorem lines_flatMap {γ : Type} {f : γ → List Symbol} {l : List γ}
    (h : ∀ x ∈ l, .escaped 'n' ∉ f x) :
    lines (l.flatMap fun x => .escaped 'n' :: f x) =
      [] :: l.map fun x => (f x).map Symbol.char := by
  induction l with
  | nil => rfl
  | cons x l ih =>
    rw [List.forall_mem_cons] at h
    rw [List.flatMap_cons, List.cons_append, lines_break, lines_append h.1 (ih h.2),
      List.append_nil, List.map_cons]

/-- What the label of an edge says about a property. -/
def edgeRow (name : String) (c : Constraint) : List Symbol :=
  symbols name.toList ++ (": ".toList ++ constraintText c).map .plain

/-- What the label of an edge says. -/
def edgeLabel (e : Schema.Edge) : List Symbol :=
  symbols e.type.toList ++ (' ' :: (e.cardinality?.getD .any).text.toList).map .plain ++
    e.constraints.entries.flatMap fun (name, c) => .escaped 'n' :: edgeRow name c

/-- Plain characters stand for themselves. -/
private theorem map_char_plain (text : List Char) :
    (text.map Symbol.plain).map Symbol.char = text := by
  rw [List.map_map]
  exact List.map_id text

/-- **Labels.** The label of an edge is read as its type with its cardinality, and a line for each
property. -/
theorem lines_edgeLabel (e : Schema.Edge) :
    lines (edgeLabel e) =
      (e.type.toList ++ ' ' :: (e.cardinality?.getD .any).text.toList) ::
        e.constraints.entries.map fun (name, c) =>
          name.toList ++ (": ".toList ++ constraintText c) := by
  have hrows : lines (e.constraints.entries.flatMap fun (name, c) =>
      .escaped 'n' :: edgeRow name c) =
        [] :: e.constraints.entries.map fun (name, c) => (edgeRow name c).map Symbol.char :=
    lines_flatMap (f := fun (name, c) => edgeRow name c) fun (name, c) _ =>
      List.not_mem_append (break_notMem_symbols _) (break_notMem_plain _)
  have hfront := List.not_mem_append (break_notMem_symbols e.type.toList)
    (break_notMem_plain (' ' :: (e.cardinality?.getD .any).text.toList))
  rw [edgeLabel, lines_append hfront hrows, List.append_nil, List.map_append, map_char_symbols,
    map_char_plain]
  refine congrArg _ (List.map_congr_left fun (name, c) _ => ?_)
  show (edgeRow name c).map Symbol.char = _
  rw [edgeRow, List.map_append, map_char_symbols, map_char_plain]

/-! ## Tokens -/

/-- A text between quotation marks ends at the next one. -/
theorem reads_quote {held : List Symbol} {text : List Char} {tokens : List Token} {place : Place}
    (h : transduce Place.next .between text = some (tokens, place)) :
    transduce Place.next (.quoted held) ('"' :: text) =
      some (.id (.quoted held) :: tokens, place) := by
  have hquote : Place.next (.quoted held) '"' = some ([.id (.quoted held)], .between) := rfl
  exact transduce_cons hquote h

/-- The tokens of a node. -/
def nodeTokens (number : Nat) (n : Schema.Node) : List Token :=
  [.id (.quoted (symbols n.id.toList)), .mark '[', .id (.word "label".toList), .mark '=',
    .id (.html (tableText number n)), .mark ']', .mark ';']

/-- **Nodes** are cut into their tokens. -/
theorem reads_nodeText (number : Nat) (n : Schema.Node) :
    transduce Place.next .between (nodeText number n) = some (nodeTokens number n, .between) := by
  have hopen : transduce Place.next .between "  \"".toList = some ([], .quoted []) := by decide
  have hlabel : transduce Place.next .between " [label=<".toList =
      some ([.mark '[', .id (.word "label".toList), .mark '='], .html 0 []) := by decide
  have hend : transduce Place.next .between "];\n".toList =
      some ([.mark ']', .mark ';'], .between) := by decide
  have hbracket : Place.next (.html 0 (tableText number n)) '>' =
      some ([.id (.html (tableText number n))], .between) := rfl
  have hclose := transduce_cons hbracket hend
  have hread := transduce_append (transduce_append hopen (reads_quotedText n.id []))
    (transduce_append (reads_quote hlabel)
      (transduce_append (balanced_tableText number n 0 []) hclose))
  rw [nodeText_eq]
  simpa only [nodeTokens, List.flatten_cons, List.flatten_nil, List.append_nil, List.nil_append,
    List.cons_append, List.append_assoc] using hread

/-- The tokens of an edge. -/
def edgeTokens (e : Schema.Edge) : List Token :=
  [.id (.quoted (symbols e.source.toList)), .arrow, .id (.quoted (symbols e.target.toList)),
    .mark '[', .id (.word "label".toList), .mark '=', .id (.quoted (edgeLabel e)), .mark ']',
    .mark ';']

/-- What the label of an edge says about a property is read as a break and the rest of a line. -/
private theorem reads_edgeRowText (name : String) (c : Constraint) (held : List Symbol) :
    transduce Place.next (.quoted held) (edgeRowText name c) =
      some ([], .quoted (held ++ .escaped 'n' :: edgeRow name c)) := by
  have hbreak : transduce Place.next (.quoted held) "\\n".toList =
      some ([], .quoted (held ++ [.escaped 'n'])) := rfl
  have hcolon : Inert ": ".toList := by decide
  have hread := transduce_append (transduce_append hbreak (reads_quotedText name _))
    (reads_inert (hcolon.append (inert_constraintText c)) _)
  unfold edgeRowText edgeRow
  simpa only [List.append_assoc, List.nil_append, List.cons_append] using hread

/-- The text of an edge, cut into the parts that are read one after the other. -/
private theorem edgeText_eq (e : Schema.Edge) :
    edgeText e =
      ["  \"".toList, quotedText e.source, '"' :: " -> \"".toList, quotedText e.target,
        '"' :: " [label=\"".toList, quotedText e.type,
        ' ' :: (e.cardinality?.getD .any).text.toList,
        e.constraints.entries.flatMap (fun (name, c) => edgeRowText name c),
        '"' :: "];\n".toList].flatten := by
  have harrow : "\" -> \"".toList = '"' :: " -> \"".toList := by decide
  have hlabel : "\" [label=\"".toList = '"' :: " [label=\"".toList := by decide
  have hclose : "\"];\n".toList = '"' :: "];\n".toList := by decide
  unfold edgeText
  simp only [harrow, hlabel, hclose, List.flatten_cons, List.flatten_nil, List.append_nil,
    List.append_assoc]

/-- **Edges** are cut into their tokens. -/
theorem reads_edgeText (e : Schema.Edge) :
    transduce Place.next .between (edgeText e) = some (edgeTokens e, .between) := by
  have hopen : transduce Place.next .between "  \"".toList = some ([], .quoted []) := by decide
  have harrow : transduce Place.next .between " -> \"".toList =
      some ([.arrow], .quoted []) := by decide
  have hlabel : transduce Place.next .between " [label=\"".toList =
      some ([.mark '[', .id (.word "label".toList), .mark '='], .quoted []) := by decide
  have hend : transduce Place.next .between "];\n".toList =
      some ([.mark ']', .mark ';'], .between) := by decide
  have hblank : Inert [' '] := by decide
  have hrows : ∀ held, transduce Place.next (.quoted held)
      (e.constraints.entries.flatMap fun (name, c) => edgeRowText name c) =
        some ([], .quoted (held ++
          e.constraints.entries.flatMap fun (name, c) => .escaped 'n' :: edgeRow name c)) :=
    transduce_collect fun (name, c) _ held => reads_edgeRowText name c held
  have hsource := transduce_append (transduce_append hopen (reads_quotedText e.source []))
    (transduce_append (reads_quote harrow) (reads_quotedText e.target []))
  have hfirst := transduce_append (reads_quotedText e.type [])
    (reads_inert (hblank.append (inert_text (e.cardinality?.getD .any))) _)
  have hread := transduce_append hsource (transduce_append (reads_quote hlabel)
    (transduce_append (transduce_append hfirst (hrows _)) (reads_quote hend)))
  rw [edgeText_eq]
  simpa only [edgeTokens, edgeLabel, List.flatten_cons, List.flatten_nil, List.append_nil,
    List.nil_append, List.cons_append, List.append_assoc] using hread

end ShapeSchema.Dot
