import ShapeSchema.Document.Basic
import ShapeSchema.Schema.Validation
import ShapeSchema.Json.Decode
import ShapeSchema.Json.Printer

/-!
# Documents as JSON

How documents and instances are stored. Bounds that are not set are left out, and what is left out
is read as its default.

## Main definitions

* `ShapeSchema.Document.text` — the text of a document.
* `ShapeSchema.Document.ofText` — the document in a text.
* `ShapeSchema.Instance.listOfText` — the instances in a text.
-/

namespace ShapeSchema

open Json (Problem field readAny readCount readDict readList readOptional readString)

namespace Document

/-! ## Writing -/

/-- The member of a bound, if it is set. -/
def bound {α : Type} (write : α → Json) (name : String) (value : Option α) :
    List (String × Json) :=
  value.toList.map fun value => (name, write value)

/-- A count as JSON. -/
def countJson (n : Count) : Json := .number (.whole n.toNat)

/-- A property as JSON. -/
def Property.toJson (p : Property) : Json :=
  .object (("type", .string p.datatype) :: bound countJson "minCount" p.min ++
    bound countJson "maxCount" p.max)

/-- Properties as JSON. -/
def propertiesJson (properties : Dict Property) : Json :=
  .object (properties.entries.map fun (name, p) => (name, p.toJson))

/-- A node as JSON. -/
def Node.toJson (n : Node) : Json :=
  .object [("label", .string n.label), ("properties", propertiesJson n.properties)]

/-- A relationship as JSON. -/
def Relationship.toJson (r : Relationship) : Json :=
  .object ([("type", .string r.type), ("source", .string r.source), ("target", .string r.target),
      ("properties", propertiesJson r.properties)] ++
    bound .string "minCount" r.min ++ bound .string "maxCount" r.max)

/-- A document as JSON. -/
def toJson (d : Document) : Json :=
  .object [("nodes", .array (d.nodes.map Node.toJson)),
    ("relationships", .array (d.relationships.map Relationship.toJson))]

/-- The text of a document. -/
def text (d : Document) : String := d.toJson.pretty

/-! ## Reading -/

/-- How properties are read. -/
def Property.format : Json.RecordFormat Property where
  start := {}
  fields :=
    [field "type" false readString fun p v => { p with datatype := v },
      field "minCount" false (readOptional readCount) fun p v => { p with min := v },
      field "maxCount" false (readOptional readCount) fun p v => { p with max := v }]

/-- How nodes are read. -/
def Node.format : Json.RecordFormat Node where
  start := { label := "" }
  fields :=
    [field "label" true readString fun n v => { n with label := v },
      field "properties" false (readDict Property.format.read)
        fun n v => { n with properties := v }]

/-- How relationships are read. -/
def Relationship.format : Json.RecordFormat Relationship where
  start := { type := "", source := "", target := "" }
  fields :=
    [field "type" true readString fun r v => { r with type := v },
      field "source" true readString fun r v => { r with source := v },
      field "target" true readString fun r v => { r with target := v },
      field "properties" false (readDict Property.format.read)
        fun r v => { r with properties := v },
      field "minCount" false (readOptional readString) fun r v => { r with min := v },
      field "maxCount" false (readOptional readString) fun r v => { r with max := v }]

/-- How documents are read. -/
def format : Json.RecordFormat Document where
  start := {}
  fields :=
    [field "nodes" false (readList Node.format.read) fun d v => { d with nodes := v },
      field "relationships" false (readList Relationship.format.read)
        fun d v => { d with relationships := v }]

/-- The document in a text. -/
def ofText (text : String) : Except Problem Document := Json.readText format.read text

end Document

namespace Instance

/-- How deep the values of an instance may be nested: three levels less than a text as a whole. -/
def depthLimit : Nat := Json.Tree.depthLimit - 3

/-- How instances are read. -/
def format : Json.RecordFormat Instance where
  start := { label := "" }
  fields :=
    [field "label" true readString fun i v => { i with label := v },
      field "properties" false (readDict (readAny depthLimit))
        fun i v => { i with properties := v }]

/-- The instances in a text. -/
def listOfText (text : String) : Except Problem (List Instance) :=
  Json.readText (readList format.read) text

end Instance

end ShapeSchema
