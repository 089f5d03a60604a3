import ShapeSchema.Rdf.Vocabulary

/-!
# Datatypes of properties

The value types of a property graph, and the XML Schema datatypes that stand for them in shapes.

## Main definitions

* `ShapeSchema.Datatype` — the value types.
* `ShapeSchema.Datatype.ofIri` — the value type of an XML Schema datatype.
* `ShapeSchema.Datatype.iri` — the XML Schema datatype of a value type.
* `ShapeSchema.Datatype.ofName` — the value type with a name.

## Main results

* `ShapeSchema.Datatype.ofIri_iri`, `ShapeSchema.Datatype.ofName_name` — both ways of naming a
  value type are understood.
-/

namespace ShapeSchema

/-- The value types of properties. -/
inductive Datatype where
  | string
  | integer
  | float
  | boolean
  | date
  | dateTime
  deriving DecidableEq, Inhabited

/-- A name that no value type has. -/
structure UnknownDatatype where
  /-- The name. -/
  name : String
  deriving DecidableEq

/-- What is said about a name that no value type has. -/
def UnknownDatatype.message (e : UnknownDatatype) : String :=
  "Unknown property graph datatype '" ++ e.name ++ "'"

namespace Datatype

/-- The value types. -/
def all : List Datatype := [string, integer, float, boolean, date, dateTime]

/-- The name of a value type. -/
def name : Datatype → String
  | string => "String"
  | integer => "Integer"
  | float => "Float"
  | boolean => "Boolean"
  | date => "Date"
  | dateTime => "DateTime"

/-- The datatype that a value type becomes in shapes. A float becomes the wider of the two
datatypes that are read as floats. -/
def iri : Datatype → Iri
  | string => xsd "string"
  | integer => xsd "integer"
  | float => xsd "double"
  | boolean => xsd "boolean"
  | date => xsd "date"
  | dateTime => xsd "dateTime"

/-- The datatypes that are no strings, with their value types. -/
def readings : List (Iri × Datatype) :=
  [(xsd "integer", integer), (xsd "int", integer), (xsd "float", float),
    (xsd "double", float), (xsd "boolean", boolean), (xsd "date", date),
    (xsd "dateTime", dateTime)]

/-- The value type of a datatype. A datatype that is not known is read as a string. -/
def ofIri (iri : Iri) : Datatype := (readings.lookup iri).getD string

/-- The value type with a name. -/
def ofName (name : String) : Except UnknownDatatype Datatype :=
  match all.find? (·.name = name) with
  | some d => .ok d
  | none => .error ⟨name⟩

/-! ## Laws -/

/-- **Shapes.** A value type is read back from its datatype. -/
theorem ofIri_iri (d : Datatype) : ofIri d.iri = d := by
  cases d <;> rfl

/-- **Names.** A value type is read back from its name. -/
theorem ofName_name (d : Datatype) : ofName d.name = .ok d := by
  cases d <;> rfl

end Datatype

end ShapeSchema
