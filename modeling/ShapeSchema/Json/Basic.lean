import ShapeSchema.Json.Magnitude

/-!
# JSON values

The values of a JSON text, and what may be wrong with a text that should hold one.

## Main definitions

* `ShapeSchema.Json.Number` — the numbers: whole ones, and others of double precision.
* `ShapeSchema.Json` — the values.
* `ShapeSchema.Json.Problem` — why a text was refused.
-/

namespace ShapeSchema

namespace Json

/-- A number. -/
inductive Number where
  /-- A whole number, signed or not, of 64 bits. -/
  | whole (value : Int)
  /-- Any other number, of double precision. Its sign stands apart, so that there is a negative
  zero. -/
  | double (negative : Bool) (magnitude : Magnitude)
  deriving DecidableEq, Inhabited

/-- Why a text was refused. -/
inductive Problem where
  /-- A character stands where the grammar does not allow it, or a number is too large. -/
  | malformed
  /-- The text ends inside a value. -/
  | cutShort
  /-- The text is well-formed as far as it was read, and its value is not of the expected kind. -/
  | mistyped
  deriving DecidableEq

end Json

/-- The JSON values. The members of an object are kept in order. -/
inductive Json where
  | null
  | bool (value : Bool)
  | number (value : Json.Number)
  | string (value : String)
  | array (items : List Json)
  | object (members : List (String × Json))
  deriving Inhabited

namespace Json

/-- The number of values that a value stands for: an array stands for its items, `null` for
nothing at all, and any other value for itself. -/
def count? : Json → Option Nat
  | null => none
  | array items => some items.length
  | _ => some 1

end Json

end ShapeSchema
