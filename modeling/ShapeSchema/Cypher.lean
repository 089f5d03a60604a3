import ShapeSchema.Document.Basic
import ShapeSchema.Naming
import ShapeSchema.Palette

/-!
# Cypher scripts

A script that draws a document in a graph database: a node for each label, with the types of its
properties, and a relationship for each triple of source, type and target.

## Main definitions

* `ShapeSchema.Cypher.identifier`, `ShapeSchema.Cypher.stringText` — names and texts in a script.
* `ShapeSchema.Cypher.Command` — the commands of a script.
* `ShapeSchema.Cypher.nodeCommands`, `ShapeSchema.Cypher.relationshipCommands` — those of a
  document.
* `ShapeSchema.Cypher.script` — the script of a document.
-/

namespace ShapeSchema.Cypher

/-! ## Names and texts -/

/-- Whether a text is a plain name, which needs no quotation. -/
def isPlainName (text : List Char) : Bool :=
  match text with
  | [] => false
  | c :: _ => !c.isDigit && text.all Naming.isWordChar

/-- A text as a name. Unless it is a plain name, it stands between grave accents, and its own are
doubled. -/
def identifier (text : List Char) : List Char :=
  if isPlainName text then text
  else '\x60' :: text.flatMap (fun c => if c = '\x60' then ['\x60', '\x60'] else [c]) ++ ['\x60']

/-- A text between single quotation marks has a backslash before backslashes and such marks. -/
def escapedChar (c : Char) : List Char :=
  if c = '\\' ∨ c = '\x27' then ['\\', c] else [c]

/-- A text between single quotation marks. -/
def stringText (text : List Char) : List Char :=
  '\x27' :: text.flatMap escapedChar ++ ['\x27']

/-- The variable for a label: its letters in lower case, its digits, and underscores for all else.
It does not begin with a digit. -/
def variableName (label : List Char) : List Char :=
  let name := label.map fun c => if c.isAlphanum then c.toLower else '_'
  match name with
  | [] => ['n', '_']
  | c :: _ => if c.isDigit then 'n' :: '_' :: name else name

/-- The type of a relationship: letters in upper case, digits, and underscores for all else. -/
def typeName (type : List Char) : List Char :=
  type.map fun c => if Naming.isWordChar c then c.toUpper else '_'

/-! ## Commands -/

/-- The commands of a script. -/
inductive Command where
  /-- Creates the node of a label in a colour, with the types of its properties. -/
  | node (label colour : String) (types : List (String × String))
  /-- Creates a relationship between two labels, with the types of its properties. -/
  | relationship (source type target : String) (types : List (String × String))
  /-- Says that there is no node for one of the two labels. -/
  | skipped (source type target : String)
  deriving DecidableEq

/-- The names that the node of a label gives to properties of its own. -/
def reservedNames : List String := ["id", "name", "label", "displayName"]

/-- Whether the node of a label leaves out a property with the name. -/
def isReserved (name : String) : Bool := name.toList.head? == some '_' || name ∈ reservedNames

/-- The names of properties with the names of their types. -/
def typesOf (properties : Dict Document.Property) : List (String × String) :=
  properties.entries.map fun (name, p) => (name, p.datatype)

/-- The members of a list that are the first with their key. -/
def firstsBy {α κ : Type} [DecidableEq κ] (key : α → κ) (seen : List κ) : List α → List α
  | [] => []
  | a :: rest =>
    if key a ∈ seen then firstsBy key seen rest else a :: firstsBy key (key a :: seen) rest

/-- The commands for the nodes of a document: one for each label, of the first node with it. -/
def nodeCommands (d : Document) : List Command :=
  (firstsBy Document.Node.label [] d.nodes).mapIdx fun number n =>
    .node n.label (Palette.colour number)
      ((typesOf n.properties).filter fun (name, _) => !isReserved name)

/-- Whether a document has a node with the label. -/
def hasLabel (d : Document) (label : String) : Bool := (d.node? label).isSome

/-- The commands for the relationships of a document: one for each triple of source, type and
target, of the first relationship with it. -/
def relationshipCommands (d : Document) : List Command :=
  (firstsBy (fun r : Document.Relationship => (r.source, r.type, r.target)) []
      d.relationships).map fun r =>
    if hasLabel d r.source && hasLabel d r.target then
      .relationship r.source r.type r.target (typesOf r.properties)
    else .skipped r.source r.type r.target

/-! ## Texts of commands -/

/-- The types of properties as further entries of a map. -/
def typesText (types : List (String × String)) : List Char :=
  types.flatMap fun (name, type) =>
    ", ".toList ++ identifier name.toList ++ ": ".toList ++ stringText type.toList

/-- A command as one line. -/
def Command.text : Command → List Char
  | node label colour types =>
    let name := stringText label.toList
    "CREATE (".toList ++ variableName label.toList ++ ":".toList ++ identifier label.toList ++
      " \x7bname: ".toList ++ name ++ ", displayName: ".toList ++ name ++ ", label: ".toList ++
      name ++ ", color: ".toList ++ stringText colour.toList ++ typesText types ++
      "\x7d);\n".toList
  | relationship source type target types =>
    "MATCH (a:".toList ++ identifier source.toList ++ "), (b:".toList ++
      identifier target.toList ++ ") CREATE (a)-[r:".toList ++ typeName type.toList ++
      " \x7bname: ".toList ++ stringText type.toList ++ typesText types ++ "\x7d]->(b);\n".toList
  | skipped source type target =>
    "// Skipping relationship ".toList ++ type.toList ++ " from ".toList ++ source.toList ++
      " to ".toList ++ target.toList ++
      " - one or both labels not found in schema\n".toList

/-! ## Scripts -/

/-- The lines before the commands. -/
def header : List Char :=
  "// Uncomment to clear the database before import\n// MATCH (n) DETACH DELETE n;\n\n".toList

/-- The part of a script for the nodes. -/
def nodesText (d : Document) : List Char :=
  "// Create nodes\n".toList ++
    if d.nodes.isEmpty then "// No nodes found in schema\n".toList
    else (nodeCommands d).flatMap Command.text

/-- The part of a script for the relationships. -/
def relationshipsText (d : Document) : List Char :=
  "// Create relationships\n".toList ++
    if d.relationships.isEmpty then "// No relationships found in schema\n".toList
    else (relationshipCommands d).flatMap Command.text

/-- The script of a document. -/
def script (d : Document) : String :=
  String.ofList (header ++ nodesText d ++ '\n' :: relationshipsText d)

end ShapeSchema.Cypher
