/-!
# Colours

The colours in which kinds of nodes are drawn, one after the other and then from the start again.

## Main definitions

* `ShapeSchema.Palette.colour` — the colour of the node with a number.
-/

namespace ShapeSchema.Palette

/-- The colours in order. -/
def colours : List String :=
  ["#FF5733", "#33A1FF", "#33FF57", "#9133FF", "#FFDD33", "#FF33A1", "#33FFDD", "#A1FF33",
    "#FF8333", "#8333FF"]

/-- The colour of the node with a number. -/
def colour (n : Nat) : String := (colours[n % colours.length]?).getD ""

end ShapeSchema.Palette
