/-!
# Diagnostics

What is worth telling about a step besides its result: parts of the input that were passed over,
and milestones of a run.

## Main definitions

* `ShapeSchema.Severity` — how much a diagnostic matters.
* `ShapeSchema.Diagnostic` — the events.
* `ShapeSchema.Diagnostic.severity`, `ShapeSchema.Diagnostic.message` — how they are reported.
-/

namespace ShapeSchema

/-- How much a diagnostic matters. -/
inductive Severity where
  | debug
  | info
  | warn
  deriving DecidableEq

/-- The name of a severity. -/
def Severity.text : Severity → String
  | debug => "debug"
  | info => "info"
  | warn => "warn"

/-- The events that steps report. -/
inductive Diagnostic where
  /-- A node shape has no target class that is an IRI. -/
  | shapeWithoutClass
  /-- A node shape has a further target class. -/
  | furtherClass
  /-- Two target classes have one local name. -/
  | sharedLocalName
  /-- A property of a node shape is a literal. -/
  | propertyNotNode
  /-- A property shape has no path that is an IRI. -/
  | propertyWithoutPath
  /-- The class of a property shape is not an IRI. -/
  | classNotIri
  /-- A property shape has neither a class nor a datatype. -/
  | propertyWithoutType
  /-- A property of a relationship is a literal. -/
  | nestedNotNode
  /-- A property of a relationship has no path that is an IRI. -/
  | nestedWithoutPath
  /-- A property of a relationship has no datatype that is an IRI. -/
  | nestedWithoutDatatype
  /-- A bound is not a count. -/
  | invalidCount
  /-- A property has the compound name of a relationship property. -/
  | copyShadowed
  /-- A property belongs to no node. -/
  | propertyOfUnknownSubject
  /-- The identifier of a relationship is taken. -/
  | relationshipRenamed
  /-- A relationship has an endpoint that is no node. -/
  | relationshipDangling
  /-- The shape of a class has no valid IRI. -/
  | classShapeIri
  /-- The shape of a subject has no valid IRI. -/
  | subjectShapeIri
  /-- A name has no valid IRI in the namespace. -/
  | nameIri
  /-- The statements were read. -/
  | statementsRead
  /-- The schema was built. -/
  | schemaBuilt
  /-- The shapes were written. -/
  | shapesBuilt
  deriving DecidableEq

namespace Diagnostic

/-- How much an event matters. -/
def severity : Diagnostic → Severity
  | propertyWithoutType | nestedWithoutDatatype | copyShadowed | propertyOfUnknownSubject
  | relationshipRenamed => .debug
  | statementsRead | schemaBuilt | shapesBuilt => .info
  | _ => .warn

/-- What is said about an event. -/
def message : Diagnostic → String
  | shapeWithoutClass => "Node shape without an IRI sh:targetClass, skipping it"
  | furtherClass => "Node shape with several target classes, only the first is used"
  | sharedLocalName => "Two target classes share the same local name"
  | propertyNotNode => "sh:property value is not a node, skipping it"
  | propertyWithoutPath => "Property shape without an IRI sh:path, skipping it"
  | classNotIri => "sh:class is not an IRI, skipping the property shape"
  | propertyWithoutType =>
    "Property shape with neither sh:class nor sh:datatype is not supported, dropping it"
  | nestedNotNode => "Nested sh:property value is not a node, skipping it"
  | nestedWithoutPath => "Nested property shape without an IRI sh:path, skipping it"
  | nestedWithoutDatatype =>
    "Nested property shape without sh:datatype is not supported, dropping it"
  | invalidCount => "Invalid count, using the default"
  | copyShadowed =>
    "A node property has the compound name of a relationship property, keeping the node property"
  | propertyOfUnknownSubject => "Property of an unknown subject, dropping it"
  | relationshipRenamed => "Relationship id already taken, renaming it"
  | relationshipDangling => "Relationship with an unknown endpoint, dropping it"
  | classShapeIri => "Cannot mint a shape IRI for the class"
  | subjectShapeIri => "Cannot mint a shape IRI for the subject, skipping its statements"
  | nameIri => "Cannot build an IRI, skipping it"
  | statementsRead => "Extracted statements"
  | schemaBuilt => "Lowered to a property graph schema"
  | shapesBuilt => "Lifted to SHACL"

/-- An event as one line. -/
def text (d : Diagnostic) : String := d.severity.text ++ ": " ++ d.message

end Diagnostic

end ShapeSchema
