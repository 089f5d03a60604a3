/-!
# Numbers in texts

Natural numbers that are written in decimal or hexadecimal digits of ASCII.

## Main definitions

* `ShapeSchema.Text.ofDigits?` — the number written by a non-empty text of decimal digits.
* `ShapeSchema.Text.hexNumber?` — the number that hexadecimal digits stand for.

## Main results

* `ShapeSchema.Text.ofDigits?_toDigits` — every number is read back from its decimal digits.
-/

namespace ShapeSchema.Text

/-- The number written by a non-empty text that consists of ASCII digits; leading zeros are
allowed. -/
def ofDigits? (text : List Char) : Option Nat :=
  if !text.isEmpty && text.all Char.isDigit then some (Nat.ofDigitChars 10 text 0) else none

/-- The value of a hexadecimal digit, in upper or in lower case. -/
def hexValue? (c : Char) : Option Nat :=
  if c.isDigit then some (c.toNat - '0'.toNat)
  else if 'a' ≤ c ∧ c ≤ 'f' then some (c.toNat - 'a'.toNat + 10)
  else if 'A' ≤ c ∧ c ≤ 'F' then some (c.toNat - 'A'.toNat + 10)
  else none

/-- The number that a text of hexadecimal digits stands for. -/
def hexNumber? (text : List Char) : Option Nat :=
  text.foldlM (fun n c => (hexValue? c).map (16 * n + ·)) 0

/-- The characters of a number are digits. -/
theorem isDigit_of_mem_toDigits {n : Nat} {c : Char} (h : c ∈ Nat.toDigits 10 n) :
    c.isDigit = true :=
  Nat.isDigit_of_mem_toDigits (by decide) (by decide) h

/-- **Round trip.** Every number is read back from its digits. -/
theorem ofDigits?_toDigits (n : Nat) : ofDigits? (Nat.toDigits 10 n) = some n := by
  have hdigits : (Nat.toDigits 10 n).all Char.isDigit = true :=
    List.all_eq_true.2 fun _ => isDigit_of_mem_toDigits
  simp [ofDigits?, hdigits, Nat.toDigits_ne_nil, Nat.ofDigitChars_ten_toDigits]

end ShapeSchema.Text
