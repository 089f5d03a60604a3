import ShapeSchema.Json.Token

/-!
# Trees of JSON texts

The structure of a text, faults included. What a text should hold decides which of its faults
matters, and a value of the wrong kind may come before any of them; so faults are kept where they
are, and a reader goes through the tree in the order of the text until it meets the first problem.

## Main definitions

* `ShapeSchema.Json.Tree` — the structure of a text.
* `ShapeSchema.Json.Tree.ofTokens` — the tree at the start of some tokens, and what follows it.
* `ShapeSchema.Json.Tree.skip` — checks a part of a text that is not needed.
* `ShapeSchema.Json.Tree.value` — the value of a part.
* `ShapeSchema.Json.readText` — reads a text that consists of one value.
-/

namespace ShapeSchema.Json

/-- What stands behind the last item of an array or the last member of an object. -/
inductive Ending where
  /-- The closing bracket. -/
  | closed
  /-- Something else, with what is wrong with it if it is to be read and if it is to be skipped. -/
  | fault (read skipped : Problem)
  deriving DecidableEq

/-- The structure of a text. -/
inductive Tree where
  | null
  | bool (value : Bool)
  | number (numeral : Numeral)
  /-- A quoted text; `none` if an escape in it is half of a surrogate pair. -/
  | string (text : Option String)
  | array (items : List Tree) (ending : Ending)
  | object (members : List (Option String × Tree)) (ending : Ending)
  /-- No value, with what is wrong if one is to be read and if one is to be skipped. -/
  | broken (read skipped : Problem)
  deriving Inhabited

/-! ## From tokens to trees -/

/-- The tree of a place where a token cannot stand. -/
def Tree.misplaced : Tree := .broken .malformed .malformed

/-- The tree of a place where the text ends too early. -/
def Tree.missing : Tree := .broken .cutShort .cutShort

/-- The ending at a place where a token cannot stand. -/
def Ending.misplaced : Ending := .fault .malformed .malformed

/-- The ending at a place where the text ends too early. -/
def Ending.missing : Ending := .fault .cutShort .cutShort

mutual

/-- The value at the start of some tokens, and what follows. Every call that does not fail takes a
token, so that `fuel` of twice their number is enough. -/
def Tree.valueOf (fuel : Nat) (tokens : List Token) : Tree × List Token :=
  match fuel, tokens with
  | 0, _ => (.missing, [])
  | _, [] => (.missing, [])
  | _, .null :: rest => (.null, rest)
  | _, .bool b :: rest => (.bool b, rest)
  | _, .number n :: rest => (.number n, rest)
  | _, .string s :: rest => (.string s, rest)
  | _, .brokenString read skipped :: _ => (.broken read skipped, [])
  | _, .broken read skipped :: _ => (.broken read skipped, [])
  | fuel + 1, .mark c :: rest =>
    if c = '[' then
      match rest with
      | .mark ']' :: rest => (.array [] .closed, rest)
      | rest =>
        let (items, ending, rest) := Tree.itemsOf fuel rest
        (.array items ending, rest)
    else if c = '\x7b' then
      match rest with
      | .mark '\x7d' :: rest => (.object [] .closed, rest)
      | rest =>
        let (members, ending, rest) := Tree.membersOf fuel rest
        (.object members ending, rest)
    else (.misplaced, [])

/-- The items of an array that has a further one, how they end, and what follows. -/
def Tree.itemsOf (fuel : Nat) (tokens : List Token) : List Tree × Ending × List Token :=
  match fuel with
  | 0 => ([], .missing, [])
  | fuel + 1 =>
    let (item, rest) := Tree.valueOf fuel tokens
    match rest with
    | .mark ']' :: rest => ([item], .closed, rest)
    | .mark ',' :: rest =>
      let (items, ending, rest) := Tree.itemsOf fuel rest
      (item :: items, ending, rest)
    | [] => ([item], .missing, [])
    | _ => ([item], .misplaced, [])

/-- The members of an object that has a further one, how they end, and what follows. -/
def Tree.membersOf (fuel : Nat) (tokens : List Token) :
    List (Option String × Tree) × Ending × List Token :=
  match fuel, tokens with
  | 0, _ => ([], .missing, [])
  | _, [] => ([], .missing, [])
  | fuel + 1, .string key :: .mark ':' :: rest =>
    let (value, rest) := Tree.valueOf fuel rest
    match rest with
    | .mark '\x7d' :: rest => ([(key, value)], .closed, rest)
    | .mark ',' :: rest =>
      let (members, ending, rest) := Tree.membersOf fuel rest
      ((key, value) :: members, ending, rest)
    | [] => ([(key, value)], .missing, [])
    | _ => ([(key, value)], .misplaced, [])
  | _, [.string key] => ([(key, .missing)], .missing, [])
  | _, .string key :: _ => ([(key, .misplaced)], .missing, [])
  | _, .brokenString read skipped :: _ => ([], .fault read skipped, [])
  | _, _ => ([], .misplaced, [])

end

/-- The tree at the start of some tokens, and what follows it. -/
def Tree.ofTokens (tokens : List Token) : Tree × List Token :=
  Tree.valueOf (2 * tokens.length + 1) tokens

/-! ## Numbers -/

namespace Numeral

/-- The number that decimal digits stand for. -/
def natOf (digits : List Char) : Nat := Nat.ofDigitChars 10 digits 0

/-- The exponent as it is written. -/
def writtenPower (n : Numeral) : Int :=
  match n.power with
  | none => 0
  | some (true, digits) => -(natOf digits : Int)
  | some (false, digits) => natOf digits

/-- Whether a numeral is written as a whole number without a sign. -/
def isPlain (n : Numeral) : Bool := !n.negative && n.fraction.isNone && n.power.isNone

/-- The digits that fit into 64 bits: as many from the front as stand for a number below 2^64. -/
def leading (acc : Nat) : List Char → Nat × Nat
  | [] => (acc, 0)
  | c :: rest =>
    let next := 10 * acc + (c.toNat - '0'.toNat)
    if next < UInt64.size then leading next rest else (acc, rest.length + 1)

/-- The whole number that a numeral without point and exponent stands for, if it has 64 bits and is
no negative zero. -/
def wholeNumber? (n : Numeral) : Option Int :=
  let value := natOf n.whole
  if n.fraction.isSome || n.power.isSome then none
  else if n.negative then
    if 0 < value && value ≤ UInt64.size / 2 then some (-value) else none
  else if value < UInt64.size then some value else none

/-- The significand of a numeral and the power of ten behind its digits. Digits that do not fit into
64 bits only count by their number, and behind the point not at all. -/
def significand (n : Numeral) : Nat × Int :=
  let (whole, dropped) := leading 0 n.whole
  let fraction := n.fraction.getD []
  let (all, cut) := leading whole fraction
  (all, (dropped : Int) - (fraction.length - cut))

/-- The number of double precision that a numeral stands for, unless it is too large. The digits and
the power of ten are rounded, and so is every step of bringing them together. -/
def magnitude? (n : Numeral) : Option Magnitude :=
  let (digits, exponent) := n.significand
  let power := n.writtenPower
  if UInt32.size / 2 ≤ power.natAbs then
    -- An exponent that does not fit into 32 bits is not added up any more.
    if digits = 0 || power < 0 then some ⟨0, 0⟩ else none
  else (Magnitude.ofNat digits).scale? (exponent + power)

/-- The number that a numeral stands for, unless it is too large. -/
def toNumber? (n : Numeral) : Option Number :=
  match n.wholeNumber? with
  | some value => some (.whole value)
  | none => n.magnitude?.map (.double n.negative)

/-- Whether a numeral stands for a number that is not too large. -/
def inRange (n : Numeral) : Bool := n.toNumber?.isSome

end Numeral

namespace Tree

/-! ## Skipping -/

/-- The problem at an ending of a part that is skipped. -/
def skipEnding : Ending → Except Problem Unit
  | .closed => .ok ()
  | .fault _ skipped => .error skipped

/-- The problem at an ending of a part that is read. -/
def readEnding : Ending → Except Problem Unit
  | .closed => .ok ()
  | .fault read _ => .error read

mutual

/-- Checks a part of a text that is not needed. -/
def skip : Tree → Except Problem Unit
  | .array items ending => do
    skipItems items
    skipEnding ending
  | .object members ending => do
    skipMembers members
    skipEnding ending
  | .broken _ skipped => .error skipped
  | _ => .ok ()

/-- Checks items that are not needed. -/
def skipItems : List Tree → Except Problem Unit
  | [] => .ok ()
  | item :: items => do
    skip item
    skipItems items

/-- Checks members that are not needed. -/
def skipMembers : List (Option String × Tree) → Except Problem Unit
  | [] => .ok ()
  | (_, value) :: members => do
    skip value
    skipMembers members

end

/-! ## Reading any value -/

/-- The depth to which arrays and objects may be nested in a text that is read. -/
def depthLimit : Nat := 127

/-- The text of a quoted text that is read. -/
def keyText : Option String → Except Problem String
  | some key => .ok key
  | none => .error .malformed

mutual

/-- The value of a part of a text; `depth` says how deep it may still be nested. -/
def value (depth : Nat) : Tree → Except Problem Json
  | .null => .ok .null
  | .bool b => .ok (.bool b)
  | .number n =>
    match n.toNumber? with
    | some read => .ok (.number read)
    | none => .error .malformed
  | .string text => (keyText text).map .string
  | .array items ending =>
    match depth with
    | 0 => .error .malformed
    | depth + 1 => do
      let items ← valueItems depth items
      readEnding ending
      return .array items
  | .object members ending =>
    match depth with
    | 0 => .error .malformed
    | depth + 1 => do
      let members ← valueMembers depth members
      readEnding ending
      return .object members
  | .broken read _ => .error read

/-- The values of the items of an array. -/
def valueItems (depth : Nat) : List Tree → Except Problem (List Json)
  | [] => .ok []
  | item :: items => do
    let first ← value depth item
    let others ← valueItems depth items
    return first :: others

/-- The values of the members of an object. -/
def valueMembers (depth : Nat) : List (Option String × Tree) →
    Except Problem (List (String × Json))
  | [] => .ok []
  | (key, member) :: members => do
    let key ← keyText key
    let first ← value depth member
    let others ← valueMembers depth members
    return (key, first) :: others

end

end Tree

/-! ## Texts -/

/-- Reads a text that consists of one value, as `decode` reads the value's tree. -/
def readText {α : Type} (decode : Tree → Except Problem α) (text : String) : Except Problem α := do
  let (tree, rest) := Tree.ofTokens (tokens text.toList)
  let result ← decode tree
  match rest with
  | [] => return result
  | _ => throw .malformed

end ShapeSchema.Json
