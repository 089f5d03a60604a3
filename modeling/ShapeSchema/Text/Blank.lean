/-!
# Blank characters

The characters with the Unicode property `White_Space`, and texts without them at their ends.
Counts in a shapes graph may stand between blanks.

## Main definitions

* `ShapeSchema.Text.isBlank` — the table of the property.
* `ShapeSchema.Text.trim` — a text without the blanks at both ends.

## Main results

* `ShapeSchema.Text.trim_eq_self` — a text without blanks stays as it is.
-/

namespace ShapeSchema.Text

/-- The characters with the property `White_Space`. -/
def isBlank (c : Char) : Bool :=
  let n := c.toNat
  (0x09 ≤ n && n ≤ 0x0D) || n == 0x20 || n == 0x85 || n == 0xA0 || n == 0x1680
    || (0x2000 ≤ n && n ≤ 0x200A) || n == 0x2028 || n == 0x2029 || n == 0x202F || n == 0x205F
    || n == 0x3000

/-- A text without the blanks at both ends. -/
def trim (text : List Char) : List Char :=
  ((text.dropWhile isBlank).reverse.dropWhile isBlank).reverse

/-- A text without blanks stays as it is. -/
theorem trim_eq_self {text : List Char} (h : ∀ c ∈ text, isBlank c = false) : trim text = text := by
  have hdrop : ∀ l : List Char, (∀ c ∈ l, isBlank c = false) → l.dropWhile isBlank = l := by
    intro l hl
    cases l with
    | nil => rfl
    | cons c l => rw [List.dropWhile_cons, hl c List.mem_cons_self, if_neg Bool.false_ne_true]
  have hreverse : ∀ c ∈ text.reverse, isBlank c = false := fun c hc => h c (List.mem_reverse.1 hc)
  rw [trim, hdrop text h, hdrop text.reverse hreverse, List.reverse_reverse]

end ShapeSchema.Text
