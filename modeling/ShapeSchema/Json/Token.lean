import ShapeSchema.Json.Basic
import ShapeSchema.Text.Digits

/-!
# Tokens of JSON

A text is cut into tokens before its structure is looked at. Cutting never fails: what is no token
becomes a *broken* token, and the text behind it is not looked at any more.

A text is read for two purposes. What is *read* gives a value; what is only *skipped* is checked
less strictly. So a broken token says for each purpose what is wrong with it.

## Main definitions

* `ShapeSchema.Json.Numeral` — a number as it is written.
* `ShapeSchema.Json.Token` — the tokens.
* `ShapeSchema.Json.cutToken` — the first token of a text and what follows it.
* `ShapeSchema.Json.tokens` — the tokens of a text.
-/

namespace ShapeSchema.Json

/-- A number as it is written. -/
structure Numeral where
  /-- Whether a minus sign stands before it. -/
  negative : Bool
  /-- The digits before the point. -/
  whole : List Char
  /-- The digits behind the point, if there is one. -/
  fraction : Option (List Char)
  /-- The sign of the exponent (true for a minus sign) and its digits, if there is one. -/
  power : Option (Bool × List Char)
  deriving DecidableEq

/-- The units that a text consists of. -/
inductive Token where
  /-- One of the marks `[`, `]`, `\x7b`, `\x7d`, `,` and `:`. -/
  | mark (c : Char)
  | null
  | bool (value : Bool)
  | number (numeral : Numeral)
  /-- A quoted text; `none` if an escape in it is half of a surrogate pair. -/
  | string (text : Option String)
  /-- A quoted text that breaks, with what is wrong if it is to be read and if it is to be
  skipped. -/
  | brokenString (read skipped : Problem)
  /-- Something else that is no token, with what is wrong for either purpose. -/
  | broken (read skipped : Problem)
  deriving DecidableEq

/-- A token with the text that follows it. -/
abbrev Cut := Token × List Char

/-- The cut at a place where the text is broken. -/
def brokenAt (read skipped : Problem) : Cut := (.broken read skipped, [])

/-- The characters that may stand between tokens. -/
def isSpace (c : Char) : Bool := c == ' ' || c == '\n' || c == '\t' || c == '\r'

/-! ## Words -/

/-- The token of a word of which `rest` is still expected. -/
def cutWord (token : Token) : (expected text : List Char) → Cut
  | [], text => (token, text)
  | _ :: _, [] => brokenAt .cutShort .cutShort
  | e :: expected, c :: text =>
    if c = e then cutWord token expected text else brokenAt .malformed .malformed

/-! ## Numbers -/

/-- The digits at the start of a text, and what follows. -/
def spanDigits (text : List Char) : List Char × List Char :=
  (text.takeWhile Char.isDigit, text.dropWhile Char.isDigit)

/-- The cut at a place where a number lacks a digit. -/
def lacksDigit : List Char → Cut
  | [] => brokenAt .cutShort .malformed
  | _ => brokenAt .malformed .malformed

/-- The exponent behind its letter, and with it the number. -/
def cutPower (numeral : Numeral) (text : List Char) : Cut :=
  let (negative, text) : Bool × List Char := match text with
    | '+' :: text => (false, text)
    | '-' :: text => (true, text)
    | text => (false, text)
  match spanDigits text with
  | ([], rest) => lacksDigit rest
  | (digits, rest) => (.number { numeral with power := some (negative, digits) }, rest)

/-- What may follow the digits of a number, and with it the number. -/
def cutExponent (numeral : Numeral) : List Char → Cut
  | 'e' :: text => cutPower numeral text
  | 'E' :: text => cutPower numeral text
  | text => (.number numeral, text)

/-- What may follow the digits before the point, and with it the number. -/
def cutFraction (negative : Bool) (whole : List Char) : List Char → Cut
  | '.' :: text =>
    match spanDigits text with
    | ([], rest) => lacksDigit rest
    | (digits, rest) => cutExponent ⟨negative, whole, some digits, none⟩ rest
  | text => cutExponent ⟨negative, whole, none, none⟩ text

/-- A number behind its sign. A zero is not followed by further digits. -/
def cutNumber (negative : Bool) (text : List Char) : Cut :=
  match spanDigits text with
  | ([], rest) => lacksDigit rest
  | ('0' :: _ :: _, _) => brokenAt .malformed .malformed
  | (digits, rest) => cutFraction negative digits rest

/-! ## Quoted texts -/

/-- The code unit that the digits behind `\u` stand for, and what follows. A text of fewer than
four bytes ends too early. -/
def cutUnit (text : List Char) : Except Problem (Nat × List Char) :=
  match text with
  | a :: b :: c :: d :: rest =>
    match Text.hexNumber? [a, b, c, d] with
    | some n => .ok (n, rest)
    | none => .error .malformed
  | _ => .error (if (String.ofList text).utf8ByteSize < 4 then .cutShort else .malformed)

/-- The character that a short escape stands for. -/
def shortEscape? : Char → Option Char
  | '"' => some '"'
  | '\\' => some '\\'
  | '/' => some '/'
  | 'b' => some '\x08'
  | 'f' => some '\x0c'
  | 'n' => some '\n'
  | 'r' => some '\r'
  | 't' => some '\t'
  | _ => none

/-- What quoting keeps of a text: characters, and halves of surrogate pairs. -/
inductive Piece where
  | char (c : Char)
  /-- A code unit that is the first half of a pair. -/
  | high (unit : Nat)
  /-- A code unit that is the second half of a pair. -/
  | low (unit : Nat)
  deriving DecidableEq

/-- The piece that a code unit stands for. -/
def Piece.ofUnit (n : Nat) : Piece :=
  if 0xD800 ≤ n ∧ n ≤ 0xDBFF then .high n
  else if 0xDC00 ≤ n ∧ n ≤ 0xDFFF then .low n
  else .char (Char.ofNat n)

/-- The piece at the start of a quoted text, and what follows; the closing mark is no piece.
A raw control character is not allowed. -/
def cutPiece : List Char → Except Problem (Option Piece × List Char)
  | [] => .error .cutShort
  | '"' :: rest => .ok (none, rest)
  | ['\\'] => .error .cutShort
  | '\\' :: 'u' :: rest => do
    let (n, rest) ← cutUnit rest
    return (some (.ofUnit n), rest)
  | '\\' :: c :: rest =>
    match shortEscape? c with
    | some c => .ok (some (.char c), rest)
    | none => .error .malformed
  | c :: rest => if c.toNat < 0x20 then .error .malformed else .ok (some (.char c), rest)

/-- The character that two halves of a pair stand for. -/
def pairChar (high low : Nat) : Char :=
  Char.ofNat ((high - 0xD800) * 1024 + (low - 0xDC00) + 0x10000)

/-- The characters that pieces stand for; `none` if a half has no partner. -/
def charsOf? : List Piece → Option (List Char)
  | [] => some []
  | .char c :: rest => (charsOf? rest).map (c :: ·)
  | .high h :: .low l :: rest => (charsOf? rest).map (pairChar h l :: ·)
  | _ => none

/-- What is wrong with a quoted text that breaks with a problem behind the given pieces. A half
without partner among them comes first, and the last piece may be a half whose partner is still to
come. -/
def problemBehind (pieces : List Piece) (problem : Problem) : Problem :=
  match pieces.getLast? with
  | some (.high _) =>
    if (charsOf? pieces.dropLast).isSome then problem else .malformed
  | _ => if (charsOf? pieces).isSome then problem else .malformed

/-- A quoted text behind its first mark; `read` holds the pieces before `text`, last first. Every
step takes a character, so that `fuel` above the length of the text is enough. -/
def cutString (fuel : Nat) (read : List Piece) (text : List Char) : Cut :=
  match fuel with
  | 0 => (.brokenString .cutShort .cutShort, [])
  | fuel + 1 =>
    match cutPiece text with
    | .error problem => (.brokenString (problemBehind read.reverse problem) problem, [])
    | .ok (none, rest) => (.string ((charsOf? read.reverse).map String.ofList), rest)
    | .ok (some piece, rest) => cutString fuel (piece :: read) rest

/-! ## Texts -/

/-- The token at the start of a text that does not begin with a space, and what follows. -/
def cutToken (c : Char) (rest : List Char) : Cut :=
  if c ∈ ['[', ']', '\x7b', '\x7d', ',', ':'] then (.mark c, rest)
  else if c = 'n' then cutWord .null ['u', 'l', 'l'] rest
  else if c = 't' then cutWord (.bool true) ['r', 'u', 'e'] rest
  else if c = 'f' then cutWord (.bool false) ['a', 'l', 's', 'e'] rest
  else if c = '-' then cutNumber true rest
  else if c.isDigit then cutNumber false (c :: rest)
  else if c = '"' then cutString (rest.length + 1) [] rest
  else brokenAt .malformed .malformed

/-- The tokens of a text. Every step takes a character, so that `fuel` of the length of the text is
enough. -/
def tokensWithin (fuel : Nat) (text : List Char) : List Token :=
  match fuel, text with
  | 0, _ => []
  | _, [] => []
  | fuel + 1, c :: rest =>
    if isSpace c then tokensWithin fuel rest
    else
      let (token, rest) := cutToken c rest
      token :: tokensWithin fuel rest

/-- The tokens of a text. -/
def tokens (text : List Char) : List Token := tokensWithin text.length text

end ShapeSchema.Json
