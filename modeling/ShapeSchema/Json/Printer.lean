import ShapeSchema.Json.Basic

/-!
# Printing JSON

Values as texts with one item or member a line, indented by two spaces a level. Empty arrays and
objects stay on one line.

## Main definitions

* `ShapeSchema.Json.quoted` — a string between quotation marks.
* `ShapeSchema.Json.pretty` — the text of a value.
-/

namespace ShapeSchema.Json

/-- A character in a quoted string. Quotation marks, backslashes and control characters are
escaped. -/
def quotedChar (c : Char) : List Char :=
  match c with
  | '"' => ['\\', '"']
  | '\\' => ['\\', '\\']
  | '\x08' => ['\\', 'b']
  | '\x0c' => ['\\', 'f']
  | '\n' => ['\\', 'n']
  | '\r' => ['\\', 'r']
  | '\t' => ['\\', 't']
  | c =>
    if c.toNat < 0x20 then
      ['\\', 'u', '0', '0', (c.toNat / 16).digitChar, (c.toNat % 16).digitChar]
    else [c]

/-- A string between quotation marks. -/
def quoted (text : String) : List Char := '"' :: text.toList.flatMap quotedChar ++ ['"']

/-- A minus sign, if a number has one. -/
def signText (negative : Bool) : List Char := if negative then ['-'] else []

/-- The text of a number of double precision: all its decimal digits, with a point or an exponent
behind them. -/
def magnitudeText (x : Magnitude) : List Char :=
  match x.power with
  | .ofNat power => Nat.toDigits 10 (x.significand * Nat.pow 2 power) ++ ['.', '0']
  | .negSucc power =>
    Nat.toDigits 10 (x.significand * Nat.pow 5 (power + 1)) ++
      'e' :: '-' :: Nat.toDigits 10 (power + 1)

/-- The text of a number. -/
def numberText : Number → List Char
  | .whole value => signText (value < 0) ++ Nat.toDigits 10 value.natAbs
  | .double negative magnitude => signText negative ++ magnitudeText magnitude

/-- A line break and the indentation of a level. -/
def newLine (level : Nat) : List Char := '\n' :: List.replicate (2 * level) ' '

mutual

/-- The text of a value at a level of indentation. -/
def prettyAt (level : Nat) : Json → List Char
  | .null => ['n', 'u', 'l', 'l']
  | .bool true => ['t', 'r', 'u', 'e']
  | .bool false => ['f', 'a', 'l', 's', 'e']
  | .number n => numberText n
  | .string text => quoted text
  | .array [] => ['[', ']']
  | .array (item :: items) =>
    '[' :: newLine (level + 1) ++ prettyAt (level + 1) item ++ prettyItems (level + 1) items ++
      newLine level ++ [']']
  | .object [] => ['\x7b', '\x7d']
  | .object ((key, value) :: members) =>
    '\x7b' :: newLine (level + 1) ++ quoted key ++ [':', ' '] ++ prettyAt (level + 1) value ++
      prettyMembers (level + 1) members ++ newLine level ++ ['\x7d']

/-- The further items of an array. -/
def prettyItems (level : Nat) : List Json → List Char
  | [] => []
  | item :: items => ',' :: newLine level ++ prettyAt level item ++ prettyItems level items

/-- The further members of an object. -/
def prettyMembers (level : Nat) : List (String × Json) → List Char
  | [] => []
  | (key, value) :: members =>
    ',' :: newLine level ++ quoted key ++ [':', ' '] ++ prettyAt level value ++
      prettyMembers level members

end

/-- The text of a value. -/
def pretty (value : Json) : String := String.ofList (prettyAt 0 value)

end ShapeSchema.Json
