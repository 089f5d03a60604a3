import ShapeSchema.Iri.Basic

/-!
# Names in Turtle

The characters of prefixed names and blank node labels.

## Main definitions

* `ShapeSchema.Turtle.isNameStart`, `ShapeSchema.Turtle.isNameChar` — the classes of characters.
* `ShapeSchema.Turtle.isEscapable` — the characters that a local name holds behind a backslash.
* `ShapeSchema.Turtle.spanLabel` — the rest of the label of a blank node.
-/

namespace ShapeSchema.Turtle

/-- The characters that a prefix begins with: `PN_CHARS_BASE`. -/
def isPrefixStart (c : Char) : Bool :=
  let n := c.toNat
  c.isAlpha || (0xC0 ≤ n && n ≤ 0xD6) || (0xD8 ≤ n && n ≤ 0xF6) || (0xF8 ≤ n && n ≤ 0x2FF)
    || (0x370 ≤ n && n ≤ 0x37D) || (0x37F ≤ n && n ≤ 0x1FFF) || (0x200C ≤ n && n ≤ 0x200D)
    || (0x2070 ≤ n && n ≤ 0x218F) || (0x2C00 ≤ n && n ≤ 0x2FEF) || (0x3001 ≤ n && n ≤ 0xD7FF)
    || (0xF900 ≤ n && n ≤ 0xFDCF) || (0xFDF0 ≤ n && n ≤ 0xFFFD) || (0x10000 ≤ n && n ≤ 0xEFFFF)

/-- The characters like letters: `PN_CHARS_U`. -/
def isNameStart (c : Char) : Bool := isPrefixStart c || c == '_'

/-- The characters inside of names: `PN_CHARS`. -/
def isNameChar (c : Char) : Bool :=
  let n := c.toNat
  isNameStart c || c == '-' || c.isDigit || n == 0xB7 || (0x300 ≤ n && n ≤ 0x36F)
    || (0x203F ≤ n && n ≤ 0x2040)

/-- The characters that stand behind a backslash in a local name. -/
def isEscapable (c : Char) : Bool := "_~.-!$&'()*+,;=/?#@%".toList.contains c

/-- The rest of the label of a blank node, and what follows. Dots belong to the label only if more
of it follows. -/
def spanLabel : List Char → List Char × List Char
  | [] => ([], [])
  | c :: rest =>
    if isNameChar c || c == '.' then
      let (label, behind) := spanLabel rest
      if c == '.' && label.isEmpty then ([], c :: rest) else (c :: label, behind)
    else ([], c :: rest)

end ShapeSchema.Turtle
