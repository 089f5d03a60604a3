import ShapeSchema.Json.Tree
import ShapeSchema.Dict
import ShapeSchema.Cardinality

/-!
# Typed values from JSON

Readers for the kinds of values that a document consists of. Each goes through its part of the text
in order and reports the first problem; a value of the wrong kind is a problem at the place where
its kind shows.

## Main definitions

* `ShapeSchema.Json.Reader` — readers of one kind of values.
* `ShapeSchema.Json.readString`, `ShapeSchema.Json.readCount`, `ShapeSchema.Json.readOptional`,
  `ShapeSchema.Json.readList`, `ShapeSchema.Json.readDict` — the plain kinds.
* `ShapeSchema.Json.Field`, `ShapeSchema.Json.RecordFormat`, `ShapeSchema.Json.RecordFormat.read` —
  records: objects with known members, or arrays of the members' values in order.
-/

namespace ShapeSchema.Json

/-- How a value of some kind is read from its part of a text. -/
abbrev Reader (α : Type) := Tree → Except Problem α

/-- The problem of a value of the wrong kind. A faulty number or text is faulty first. -/
def Tree.refusal : Tree → Problem
  | .number n => if n.inRange then .mistyped else .malformed
  | .string none => .malformed
  | .broken read _ => read
  | _ => .mistyped

/-- Reads a string. -/
def readString : Reader String
  | .string text => Tree.keyText text
  | tree => .error tree.refusal

/-- Reads a count: a whole number below 2^64 without sign, point and exponent. -/
def readCount : Reader Count
  | .number n =>
    match if n.isPlain then Count.ofNat? (Numeral.natOf n.whole) else none with
    | some count => .ok count
    | none => .error (Tree.number n).refusal
  | tree => .error tree.refusal

/-- Reads a value that may also be `null`. -/
def readOptional {α : Type} (read : Reader α) : Reader (Option α)
  | .null => .ok none
  | tree => (read tree).map some

/-- Reads an array of values of one kind. -/
def readList {α : Type} (read : Reader α) : Reader (List α)
  | .array items ending => do
    let values ← items.mapM read
    Tree.readEnding ending
    return values
  | tree => .error tree.refusal

/-- Reads the members of an object as a dictionary. The last of several members with one name
counts. -/
def readDict {α : Type} (read : Reader α) : Reader (Dict α)
  | .object members ending => do
    let entries ← members.mapM fun (key, tree) => do
      let key ← Tree.keyText key
      return (key, ← read tree)
    Tree.readEnding ending
    return Dict.ofList entries
  | tree => .error tree.refusal

/-- Reads any value; `depth` says how deep it may be nested. -/
def readAny (depth : Nat) : Reader Json := Tree.value depth

/-! ## Records -/

/-- A member of a kind of records. -/
structure Field (α : Type) where
  /-- The name of the member. -/
  name : String
  /-- Whether a record must have the member. -/
  required : Bool := false
  /-- The record with the member read from its part of a text. -/
  take : α → Reader α

/-- The field that a plain reader and a setter make. -/
def field {α β : Type} (name : String) (required : Bool) (read : Reader β) (set : α → β → α) :
    Field α :=
  ⟨name, required, fun record tree => (read tree).map (set record)⟩

/-- A kind of records. -/
structure RecordFormat (α : Type) where
  /-- The record before its members are read: each has its default. -/
  start : α
  /-- The members in order. -/
  fields : List (Field α)

namespace RecordFormat

variable {α : Type}

/-- Takes in the members of an object, `seen` being the names that were there before, and gives
back all the names. A member that is not known is skipped, and one that was there before is a
problem at its name. -/
def takeMembers (format : RecordFormat α) (seen : List String) (record : α) :
    List (Option String × Tree) → Except Problem (List String × α)
  | [] => .ok (seen, record)
  | (key, tree) :: members => do
    let key ← Tree.keyText key
    match format.fields.find? (·.name = key) with
    | none =>
      Tree.skip tree
      format.takeMembers seen record members
    | some field =>
      if key ∈ seen then throw .mistyped
      let record ← field.take record tree
      format.takeMembers (key :: seen) record members

/-- Takes in the items of an array, one for each field in order, and gives back the fields that are
left over. -/
def takeItems (record : α) : List (Field α) → List Tree → Except Problem (List (Field α) × α)
  | fields, [] => .ok (fields, record)
  | [], _ :: _ => .error .malformed
  | field :: fields, tree :: items => do
    let record ← field.take record tree
    takeItems record fields items

/-- The record, unless a required member is among those that are missing. -/
def complete (missing : List (Field α)) (record : α) : Except Problem α :=
  if missing.any (·.required) then .error .mistyped else .ok record

/-- Reads a record from an object or from an array of its members. -/
def read (format : RecordFormat α) : Reader α
  | .object members ending => do
    let (seen, record) ← format.takeMembers [] format.start members
    Tree.readEnding ending
    complete (format.fields.filter (!seen.contains ·.name)) record
  | .array items ending => do
    let (missing, record) ← takeItems format.start format.fields items
    Tree.readEnding ending
    complete missing record
  | tree => .error tree.refusal

end RecordFormat

end ShapeSchema.Json
