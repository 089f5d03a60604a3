import ShapeSchema.Schema.Basic

/-!
# Checking instances

An instance has a label and values of properties. It is checked against the first node with its
label: every constraint asks how many values of its property there are.

## Main definitions

* `ShapeSchema.Violation` — one way in which an instance fails.
* `ShapeSchema.Schema.Node.violations` — what is wrong with some values.
* `ShapeSchema.Schema.violationsOf`, `ShapeSchema.Schema.ownViolations` — what is wrong with
  instances, and with the values of the nodes themselves.
-/

namespace ShapeSchema

/-- What may be wrong with an instance. -/
inductive Violation.Kind where
  /-- A property that must be there is not. -/
  | missingRequired
  /-- A property has fewer values than it must have. -/
  | tooFew (count min : Nat)
  /-- A property has more values than it may have. -/
  | tooMany (count max : Nat)
  /-- No node has the label. -/
  | unknownLabel
  deriving DecidableEq

/-- One way in which an instance fails. -/
structure Violation where
  /-- The identifier of the node, or the label that no node has. -/
  node : String
  /-- The property that is wrong, if it is one. -/
  property : Option String
  /-- What is wrong. -/
  kind : Violation.Kind
  deriving DecidableEq

namespace Violation

/-- What is wrong, in words. -/
def Kind.text : Kind → String
  | missingRequired => "required property is missing"
  | tooFew count min =>
    count.repr ++ " values, at least " ++ min.repr ++ " expected"
  | tooMany count max =>
    count.repr ++ " values, at most " ++ max.repr ++ " expected"
  | unknownLabel => "no node has this label"

/-- A violation as one line. -/
def text (v : Violation) : String :=
  match v.property with
  | some property => v.node ++ "." ++ property ++ ": " ++ v.kind.text
  | none => v.node ++ ": " ++ v.kind.text

/-- A report of violations. It ends with a line break unless there are none. -/
def reportText (violations : List Violation) : String :=
  match violations with
  | [] => "Conforms"
  | _ =>
    violations.length.repr ++ " violation(s):\n" ++
      String.join (violations.map fun v => "  " ++ v.text ++ "\n")

end Violation

/-- A label and values of properties. -/
structure Instance where
  /-- The label. -/
  label : String
  /-- The values by the names of the properties. -/
  properties : Dict Json := {}
  deriving Inhabited

namespace Constraint

/-- What is wrong with a property that has the given value. A missing value and `null` are no
values at all, and are only wrong if one is required. -/
def kindsOf (c : Constraint) (value : Option Json) : List Violation.Kind :=
  match value.bind Json.count? with
  | none => if c.cardinality.required then [.missingRequired] else []
  | some count =>
    (if count < c.cardinality.min.toNat then [.tooFew count c.cardinality.min.toNat] else []) ++
      (c.cardinality.max.toList.filter (·.toNat < count)).map fun max => .tooMany count max.toNat

end Constraint

namespace Schema

/-- What is wrong with some values of the properties of a node, in the order of the names. -/
def Node.violations (n : Node) (values : Dict Json) : List Violation :=
  n.constraints.entries.flatMap fun (name, c) =>
    (c.kindsOf (values.get? name)).map fun kind => ⟨n.id, some name, kind⟩

/-- What is wrong with the values that the nodes themselves have. -/
def ownViolations (s : Schema) : List Violation :=
  s.nodes.entries.flatMap fun n => n.violations n.properties

/-- What is wrong with an instance. -/
def violationsOf (s : Schema) (i : Instance) : List Violation :=
  match s.nodeWithLabel? i.label with
  | some n => n.violations i.properties
  | none => [⟨i.label, none, .unknownLabel⟩]

/-- What is wrong with some instances, in order. -/
def violationsOfAll (s : Schema) (instances : List Instance) : List Violation :=
  instances.flatMap s.violationsOf

end Schema

end ShapeSchema
