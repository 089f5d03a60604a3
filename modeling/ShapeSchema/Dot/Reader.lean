import ShapeSchema.Dot
import ShapeSchema.Text.Blank
import ShapeSchema.Text.Transducer

/-!
# Reading drawings

A drawing is read in four steps, each of which is a transducer or a recursion of its own.

* Characters make tokens. Between quotation marks a backslash takes the next character with it, and
  a text that begins with an opening angle bracket ends with the bracket that closes it.
* Tokens make statements: they state an attribute of the whole drawing or of all its nodes or
  edges, or else a node or an edge with its attributes.
* The label of a node is a table, whose rows consist of cells. The text in a cell is what stands
  there when the entities are replaced.
* The label of an edge consists of lines.

## Main definitions

* `ShapeSchema.Dot.Token`, `ShapeSchema.Dot.tokens?` — tokens.
* `ShapeSchema.Dot.Graph`, `ShapeSchema.Dot.graph?` — drawings as sequences of statements.
* `ShapeSchema.Dot.cells?`, `ShapeSchema.Dot.lines` — tables and lines.
* `ShapeSchema.Dot.Item.table?`, `ShapeSchema.Dot.Item.arrow?` — what a statement shows.
-/

namespace ShapeSchema.Dot

open Text

/-! ## Tokens -/

/-- A character between quotation marks. -/
inductive Symbol where
  /-- The character itself. -/
  | plain (c : Char)
  /-- A character that a backslash took with it. -/
  | escaped (c : Char)
  deriving DecidableEq

/-- The character without its backslash. -/
def Symbol.char : Symbol → Char
  | plain c => c
  | escaped c => c

/-- What things are called in a drawing. -/
inductive Id where
  /-- A run of letters, digits and underscores. -/
  | word (text : List Char)
  /-- A text between quotation marks. -/
  | quoted (text : List Symbol)
  /-- A text between angle brackets. -/
  | html (text : List Char)
  deriving DecidableEq

/-- What a name stands for. -/
def Id.text : Id → List Char
  | word text => text
  | quoted text => text.map Symbol.char
  | html text => text

/-- The tokens of a drawing. -/
inductive Token where
  | id (i : Id)
  | arrow
  | mark (c : Char)
  deriving DecidableEq

/-- The characters that are tokens by themselves. -/
def marks : List Char := ['\x7b', '\x7d', '[', ']', '=', ',', ';']

/-- Where the reader of a drawing is. It holds what it has read of a token. -/
inductive Place where
  /-- Between tokens. -/
  | between
  /-- Behind the first character of an arrow. -/
  | minus
  /-- In a word. -/
  | word (text : List Char)
  /-- Between quotation marks. -/
  | quoted (text : List Symbol)
  /-- There, behind a backslash. -/
  | escape (text : List Symbol)
  /-- Between angle brackets, with the number of pairs inside them that are open. -/
  | html (depth : Nat) (text : List Char)
  deriving DecidableEq

namespace Place

/-- The step for a character that belongs to no token before it. -/
def start (c : Char) : Option (List Token × Place) :=
  if isBlank c then some ([], between)
  else if c = '"' then some ([], quoted [])
  else if c = '<' then some ([], html 0 [])
  else if c = '-' then some ([], minus)
  else if Naming.isWordChar c then some ([], word [c])
  else if c ∈ marks then some ([.mark c], between)
  else none

/-- The step for a closing angle bracket: it ends the text, unless it closes a pair inside it. -/
def close : Nat → List Char → List Token × Place
  | 0, text => ([.id (.html text)], between)
  | depth + 1, text => ([], html depth (text ++ ['>']))

/-- One step. -/
def next : Place → Char → Option (List Token × Place)
  | between, c => start c
  | minus, c => if c = '>' then some ([.arrow], between) else none
  | word text, c =>
    if Naming.isWordChar c then some ([], word (text ++ [c]))
    else (start c).map fun (out, place) => (.id (.word text) :: out, place)
  | quoted text, c =>
    if c = '\\' then some ([], escape text)
    else if c = '"' then some ([.id (.quoted text)], between)
    else some ([], quoted (text ++ [.plain c]))
  | escape text, c => some ([], quoted (text ++ [.escaped c]))
  | html depth text, c =>
    if c = '<' then some ([], html (depth + 1) (text ++ [c]))
    else if c = '>' then some (close depth text)
    else some ([], html depth (text ++ [c]))

/-- Between quotation marks, every character but a backslash and a mark belongs to the text. -/
theorem next_quoted {c : Char} (hbackslash : c ≠ '\\') (hquote : c ≠ '"') (text : List Symbol) :
    next (quoted text) c = some ([], quoted (text ++ [.plain c])) := by
  rw [next, if_neg hbackslash, if_neg hquote]

/-- Between angle brackets, every other character belongs to the text. -/
theorem next_html {c : Char} (hopen : c ≠ '<') (hclose : c ≠ '>') (depth : Nat)
    (text : List Char) : next (html depth text) c = some ([], html depth (text ++ [c])) := by
  rw [next, if_neg hopen, if_neg hclose]

end Place

/-- The tokens of a text. -/
def tokens? (text : List Char) : Option (List Token) :=
  match transduce Place.next .between text with
  | some (tokens, .between) => some tokens
  | _ => none

/-! ## Statements -/

/-- Names with their values. -/
abbrev Attributes : Type := List (Id × Id)

/-- The statements of a drawing. -/
inductive Item where
  /-- An attribute of the drawing. -/
  | setting (name value : Id)
  /-- Attributes of all that is of a kind. -/
  | defaults (kind : List Char) (attributes : Attributes)
  /-- A node. -/
  | node (id : Id) (attributes : Attributes)
  /-- An edge. -/
  | edge (source target : Id) (attributes : Attributes)
  deriving DecidableEq

/-- The words that stand for all that is of a kind. -/
def kinds : List (List Char) := ["graph".toList, "node".toList, "edge".toList]

/-- The statement with attributes for a name. A name between quotation marks is no kind. -/
def Item.ofId : Id → Attributes → Item
  | .word text, attributes =>
    if text ∈ kinds then .defaults text attributes else .node (.word text) attributes
  | id, attributes => .node id attributes

/-- Attributes up to the bracket that ends them, and what follows the end of their statement. -/
def readAttributes : List Token → Option (Attributes × List Token)
  | .id name :: .mark '=' :: .id value :: .mark ',' :: rest =>
    (readAttributes rest).map fun (attributes, rest) => ((name, value) :: attributes, rest)
  | .id name :: .mark '=' :: .id value :: .mark ']' :: .mark ';' :: rest =>
    some ([(name, value)], rest)
  | _ => none

/-- A statement, and what follows it. -/
def readItem : List Token → Option (Item × List Token)
  | .id name :: .mark '=' :: .id value :: .mark ';' :: rest => some (.setting name value, rest)
  | .id id :: .mark '[' :: rest =>
    (readAttributes rest).map fun (attributes, rest) => (.ofId id attributes, rest)
  | .id source :: .arrow :: .id target :: .mark '[' :: rest =>
    (readAttributes rest).map fun (attributes, rest) => (.edge source target attributes, rest)
  | _ => none

/-- The statements up to the brace that ends the drawing. There are at most as many as `fuel`. -/
def readItems : (fuel : Nat) → List Token → Option (List Item)
  | _, [.mark '\x7d'] => some []
  | 0, _ => none
  | fuel + 1, tokens => do
    let (item, rest) ← readItem tokens
    let items ← readItems fuel rest
    return item :: items

/-- A drawing. -/
structure Graph where
  /-- What it is called. -/
  name : Id
  /-- Its statements. -/
  items : List Item
  deriving DecidableEq

/-- The drawing that tokens make. -/
def readGraph : List Token → Option Graph
  | .id (.word kind) :: .id name :: .mark '\x7b' :: rest =>
    if kind = "digraph".toList then (readItems rest.length rest).map fun items => ⟨name, items⟩
    else none
  | _ => none

/-- A drawing is a name, and statements behind a brace. -/
theorem readGraph_digraph (name : Id) (rest : List Token) :
    readGraph (.id (.word "digraph".toList) :: .id name :: .mark '\x7b' :: rest) =
      (readItems rest.length rest).map fun items => ⟨name, items⟩ := by
  rw [readGraph, if_pos rfl]

/-- The drawing that a text is. -/
def graph? (text : String) : Option Graph := (tokens? text.toList).bind readGraph

/-! ## Cells -/

/-- The entities by their names. -/
def entities : List (List Char × Char) :=
  [("amp".toList, '&'), ("lt".toList, '<'), ("gt".toList, '>'), ("quot".toList, '"')]

/-- One step in the text of a cell. The state is what has been read of the name of an entity. -/
def nextEntity : Option (List Char) → Char → Option (List Char × Option (List Char))
  | none, c => if c = '&' then some ([], some []) else some ([c], none)
  | some name, c =>
    if c = ';' then (entities.lookup name).map fun d => ([d], none)
    else some ([], some (name ++ [c]))

/-- What does not begin an entity stands for itself. -/
theorem nextEntity_of_ne {c : Char} (h : c ≠ '&') : nextEntity none c = some ([c], none) := by
  rw [nextEntity, if_neg h]

/-- The text of a cell with its entities replaced. -/
def unescape? (text : List Char) : Option (List Char) :=
  match transduce nextEntity none text with
  | some (out, none) => some out
  | _ => none

/-- Where the reader of a table is, between tags. -/
inductive Level where
  /-- In front of the table. -/
  | front
  /-- In the table. -/
  | table
  /-- In a row with the cells that have been read. -/
  | row (cells : List (List Char))
  /-- In a cell of such a row, with what has been read of its text. -/
  | cell (cells : List (List Char)) (text : List Char)
  /-- Behind the table. -/
  | behind
  deriving DecidableEq

/-- The name of a tag ends before its attributes. -/
def tagName (tag : List Char) : List Char := tag.takeWhile (· ≠ ' ')

namespace Level

/-- What a tag does. In a cell there may be tags for bold letters. -/
def tag (t : List Char) : Level → Option (List (List (List Char)) × Level)
  | front => if tagName t = "TABLE".toList then some ([], table) else none
  | table =>
    if tagName t = "TR".toList then some ([], row [])
    else if t = "/TABLE".toList then some ([], behind)
    else none
  | row cells =>
    if tagName t = "TD".toList then some ([], cell cells [])
    else if t = "/TR".toList then some ([cells], table)
    else none
  | cell cells text =>
    if t = "/TD".toList then (unescape? text).map fun text => ([], row (cells ++ [text]))
    else if t = "B".toList ∨ t = "/B".toList then some ([], cell cells text)
    else none
  | behind => none

/-- What a character between tags does. There are none but in cells. -/
def data (c : Char) : Level → Option Level
  | cell cells text => some (cell cells (text ++ [c]))
  | _ => none

end Level

/-- One step in a table. In a tag, the state holds what has been read of it. -/
def nextCell : Level × Option (List Char) → Char →
    Option (List (List (List Char)) × Level × Option (List Char))
  | (level, none), c =>
    if c = '<' then some ([], level, some []) else (level.data c).map fun level => ([], level, none)
  | (level, some t), c =>
    if c = '>' then (level.tag t).map fun (rows, level) => (rows, level, none)
    else some ([], level, some (t ++ [c]))

/-- In a cell, every character that begins no tag belongs to its text. -/
theorem nextCell_data {c : Char} (h : c ≠ '<') (cells : List (List Char)) (text : List Char) :
    nextCell (.cell cells text, none) c = some ([], .cell cells (text ++ [c]), none) := by
  rw [nextCell, if_neg h]
  rfl

/-- In a tag, every character that does not end it belongs to the tag. -/
theorem nextCell_tag {c : Char} (h : c ≠ '>') (level : Level) (t : List Char) :
    nextCell (level, some t) c = some ([], level, some (t ++ [c])) := by
  rw [nextCell, if_neg h]

/-- The rows of a table, each with the texts in its cells. -/
def cells? (html : List Char) : Option (List (List (List Char))) :=
  match transduce nextCell (.front, none) html with
  | some (rows, .behind, none) => some rows
  | _ => none

/-! ## Lines -/

/-- The lines of a label. A letter `n` that a backslash took with it ends a line. -/
def lines : List Symbol → List (List Char)
  | [] => [[]]
  | .escaped 'n' :: rest => [] :: lines rest
  | s :: rest =>
    match lines rest with
    | [] => [[s.char]]
    | line :: more => (s.char :: line) :: more

/-- A break ends a line. -/
theorem lines_break (rest : List Symbol) : lines (.escaped 'n' :: rest) = [] :: lines rest := rfl

/-- Anything else is the first character of the first line. -/
theorem lines_cons {s : Symbol} (h : s ≠ .escaped 'n') {rest : List Symbol} {line : List Char}
    {more : List (List Char)} (hrest : lines rest = line :: more) :
    lines (s :: rest) = (s.char :: line) :: more := by
  rw [lines, hrest]
  exact h

/-! ## What statements show -/

namespace Item

/-- The node that a statement declares. -/
def declared : Item → List Id
  | node id _ => [id]
  | _ => []

/-- The ends of the edge that a statement is. -/
def ends : Item → List Id
  | edge source target _ => [source, target]
  | _ => []

/-- What a node is called, and the rows of its table. -/
def table? : Item → Option (List Char × List (List (List Char)))
  | node id [(name, .html label)] =>
    if name = .word "label".toList then (cells? label).map fun rows => (id.text, rows) else none
  | _ => none

/-- What the ends of an edge are called, and the lines of its label. -/
def arrow? : Item → Option (List Char × List Char × List (List Char))
  | edge source target [(name, .quoted label)] =>
    if name = .word "label".toList then some (source.text, target.text, lines label) else none
  | _ => none

/-- A node whose only attribute is its label has the cells of this label. -/
theorem table?_node (id : Id) (label : List Char) :
    table? (node id [(.word "label".toList, .html label)]) =
      (cells? label).map fun rows => (id.text, rows) := by
  rw [table?, if_pos rfl]

/-- An edge whose only attribute is its label has the lines of this label. -/
theorem arrow?_edge (source target : Id) (label : List Symbol) :
    arrow? (edge source target [(.word "label".toList, .quoted label)]) =
      some (source.text, target.text, lines label) := by
  rw [arrow?, if_pos rfl]

end Item

end ShapeSchema.Dot
