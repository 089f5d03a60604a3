import ShapeSchema.Schema.Basic
import ShapeSchema.Palette

/-!
# Graph drawings

A schema in the graph description language DOT: a table for each node and an arrow for each edge.

## Main definitions

* `ShapeSchema.Dot.quotedText`, `ShapeSchema.Dot.cellText` — texts in quotation marks and in cells.
* `ShapeSchema.Dot.drawing` — the drawing of a schema.
-/

namespace ShapeSchema.Dot

/-- The text between quotation marks for a text: a backslash stands before backslashes and
quotation marks. -/
def quotedText (text : String) : List Char :=
  text.toList.flatMap fun c => if c = '\\' ∨ c = '"' then ['\\', c] else [c]

/-- A character in the cell of a table. -/
def cellChar (c : Char) : List Char :=
  if c = '&' then "&amp;".toList
  else if c = '<' then "&lt;".toList
  else if c = '>' then "&gt;".toList
  else if c = '"' then "&quot;".toList
  else [c]

/-- The text in the cell of a table for a text. -/
def cellText (text : String) : List Char := text.toList.flatMap cellChar

/-- The type and the cardinality of a property. -/
def constraintText (c : Constraint) : List Char :=
  (c.datatype.name ++ " " ++ c.cardinality.text).toList

/-- The row of a property in the table of a node. -/
def rowText (name : String) (c : Constraint) : List Char :=
  "<TR><TD ALIGN=\"LEFT\">".toList ++ cellText name ++ "</TD><TD ALIGN=\"LEFT\">".toList ++
    constraintText c ++ "</TD></TR>".toList

/-- The title of a node: its first label, or else its identifier. -/
def title (n : Schema.Node) : String := n.firstLabel?.getD n.id

/-- The line of the node with a number. -/
def nodeText (number : Nat) (n : Schema.Node) : List Char :=
  "  \"".toList ++ quotedText n.id ++
    "\" [label=<<TABLE BORDER=\"0\" CELLBORDER=\"1\" CELLSPACING=\"0\" CELLPADDING=\"4\">".toList ++
    "<TR><TD COLSPAN=\"2\" BGCOLOR=\"".toList ++ (Palette.colour number).toList ++
    "\"><B>".toList ++ cellText (title n) ++ "</B></TD></TR>".toList ++
    n.constraints.entries.flatMap (fun (name, c) => rowText name c) ++ "</TABLE>>];\n".toList

/-- The line of a property in the label of an edge; lines are parted by an escape. -/
def edgeRowText (name : String) (c : Constraint) : List Char :=
  "\\n".toList ++ quotedText name ++ ": ".toList ++ constraintText c

/-- The line of an edge. -/
def edgeText (e : Schema.Edge) : List Char :=
  "  \"".toList ++ quotedText e.source ++ "\" -> \"".toList ++ quotedText e.target ++
    "\" [label=\"".toList ++ quotedText e.type ++ ' ' ::
    (e.cardinality?.getD .any).text.toList ++
    e.constraints.entries.flatMap (fun (name, c) => edgeRowText name c) ++ "\"];\n".toList

/-- The lines before the nodes. -/
def headText (s : Schema) : List Char :=
  "digraph \"".toList ++ quotedText s.name ++ "\" \x7b\n  rankdir=LR;\n".toList ++
    "  node [shape=none, fontname=\"Helvetica\"];\n".toList ++
    "  edge [fontname=\"Helvetica\", fontsize=10];\n".toList

/-- The drawing of a schema. -/
def drawing (s : Schema) : String :=
  String.ofList
    (headText s ++ (s.nodes.entries.mapIdx nodeText).flatten ++
      s.edges.entries.flatMap edgeText ++ "\x7d\n".toList)

end ShapeSchema.Dot
