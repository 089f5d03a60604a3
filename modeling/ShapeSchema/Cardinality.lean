import ShapeSchema.Text.Digits

/-!
# Counts and cardinalities

How often a property may or must occur. Counts are unsigned 64-bit numbers.

## Main definitions

* `ShapeSchema.Count.ofText?` — the count that a text states: decimal digits, with a plus sign
  before them or not, of a number below 2^64.
* `ShapeSchema.Cardinality` — a lower bound and perhaps an upper bound.
* `ShapeSchema.Cardinality.Allows` — the numbers of occurrences between the bounds.
-/

namespace ShapeSchema

/-- The number of occurrences of something. -/
abbrev Count := UInt64

namespace Count

/-- The count with the given value, if it is below 2^64. -/
def ofNat? (n : Nat) : Option Count :=
  if h : n < UInt64.size then some (UInt64.ofNatLT n h) else none

/-- The count that a text states. -/
def ofText? : List Char → Option Count
  | '+' :: text => (Text.ofDigits? text).bind ofNat?
  | text => (Text.ofDigits? text).bind ofNat?

/-- A count in decimal digits. -/
def text (n : Count) : String := n.toNat.repr

/-- The largest count that is still a signed 64-bit number. -/
def signedLimit : Nat := UInt64.size / 2 - 1

end Count

/-- Bounds on a number of occurrences. -/
structure Cardinality where
  /-- The least number that is allowed. -/
  min : Count := 0
  /-- The greatest number that is allowed; `none` if there is no limit. -/
  max : Option Count := none
  deriving DecidableEq, Inhabited

namespace Cardinality

/-- The cardinality that allows every number. -/
def any : Cardinality := ⟨0, none⟩

/-- Whether every number is allowed because neither bound is set. -/
def isAny (c : Cardinality) : Bool := c.min == 0 && c.max.isNone

/-- The number `n` lies between the bounds. -/
def Allows (c : Cardinality) (n : Nat) : Prop :=
  c.min.toNat ≤ n ∧ ∀ m ∈ c.max, n ≤ m.toNat

instance (c : Cardinality) (n : Nat) : Decidable (c.Allows n) :=
  inferInstanceAs (Decidable (_ ∧ _))

/-- Whether at least one occurrence is required. -/
def required (c : Cardinality) : Bool := 0 < c.min

/-- The upper bound as a signed 64-bit number; `-1` if there is none or if it is too large. -/
def signedMax (c : Cardinality) : Int :=
  match c.max with
  | some m => if m.toNat ≤ Count.signedLimit then m.toNat else -1
  | none => -1

/-- The bounds as they are shown: `[1..5]`, or `[0..*]` without an upper bound. -/
def text (c : Cardinality) : String :=
  "[" ++ c.min.text ++ ".." ++ (c.max.map Count.text).getD "*" ++ "]"

end Cardinality

end ShapeSchema
