/-!
# Magnitudes

Numbers of double precision without their signs: a significand of at most 53 binary digits times a
power of two, of which the smallest is `2 ^ (-1074)`. Operations give the nearest such number, ties
to even, so that every step of a calculation rounds.

## Main definitions

* `ShapeSchema.Json.Magnitude` — a significand and a power of two.
* `ShapeSchema.Json.Magnitude.nearest` — the number nearest to a fraction.
* `ShapeSchema.Json.Magnitude.scale?` — a number times a power of ten.
-/

namespace ShapeSchema.Json

/-- A number without a sign: a significand times a power of two. -/
structure Magnitude where
  /-- The digits, as a number. -/
  significand : Nat
  /-- The power of two that it is multiplied by. -/
  power : Int
  deriving DecidableEq, Inhabited

namespace Magnitude

/-! ## Rounding -/

/-- The whole number nearest to a fraction, ties to even. -/
def nearestWhole (num den : Nat) : Nat :=
  let quotient := num / den
  let rest := num % den
  if den < 2 * rest || (2 * rest == den && quotient % 2 == 1) then quotient + 1 else quotient

/-- The power of two at or below a fraction that is not zero. -/
def binaryOrder (num den : Nat) : Int :=
  let estimate : Int := (Nat.log2 num : Int) - Nat.log2 den
  if den * Nat.pow 2 estimate.toNat ≤ num * Nat.pow 2 (-estimate).toNat then estimate
  else estimate - 1

/-- The number nearest to a fraction, ties to even. It has 53 binary digits, or fewer if the power
of two would be too small; rounding up may give one more, a one and zeros. -/
def nearest (num den : Nat) : Magnitude :=
  if num = 0 then ⟨0, 0⟩
  else
    let power := max (binaryOrder num den - 52) (-1074)
    ⟨nearestWhole (num * Nat.pow 2 (-power).toNat) (den * Nat.pow 2 power.toNat), power⟩

/-- The number nearest to a natural number. -/
def ofNat (n : Nat) : Magnitude := nearest n 1

/-- Whether a number is below the range in which it would be infinite. -/
def isFinite (x : Magnitude) : Bool :=
  x.significand * Nat.pow 2 x.power.toNat < Nat.pow 2 (1024 + (-x.power).toNat)

/-! ## Powers of ten -/

/-- The number nearest to the product of two. -/
def mul (x y : Magnitude) : Magnitude :=
  let power := x.power + y.power
  nearest (x.significand * y.significand * Nat.pow 2 power.toNat) (Nat.pow 2 (-power).toNat)

/-- The number nearest to the quotient of two. -/
def div (x y : Magnitude) : Magnitude :=
  let power := x.power - y.power
  nearest (x.significand * Nat.pow 2 power.toNat) (y.significand * Nat.pow 2 (-power).toNat)

/-- The number nearest to a power of ten. -/
def tenTo (exponent : Nat) : Magnitude := ofNat (Nat.pow 10 exponent)

/-- The number times a power of ten, unless that is infinite. The largest power of ten that there is
has the exponent 308, so a smaller exponent than its negative takes several steps. -/
def scale? (x : Magnitude) (exponent : Int) : Option Magnitude :=
  if x.significand = 0 then some x
  else if 308 < exponent then none
  else if 0 ≤ exponent then (some (x.mul (tenTo exponent.toNat))).filter isFinite
  else if -308 ≤ exponent then some (x.div (tenTo (-exponent).toNat))
  else (x.div (tenTo 308)).scale? (exponent + 308)
termination_by exponent.natAbs
decreasing_by omega

end Magnitude

end ShapeSchema.Json
