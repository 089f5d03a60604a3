import ShapeSchema.Turtle.Name

/-!
# Local names in Turtle

The part of a prefixed name behind its colon is a row of pieces: characters that stand for
themselves, characters behind a backslash, and percent encodings. Dots may stand inside a name, but
the ones at its end belong to it only behind a backslash. A name with a backslash that reaches to
the end of the document is cut in another way, by `cutAtEnd?`.

## Main definitions

* `ShapeSchema.Turtle.LocalPiece` — the pieces.
* `ShapeSchema.Turtle.LocalName` — a local name.
* `ShapeSchema.Turtle.readLocalName?` — the local name at the beginning of a text.
-/

namespace ShapeSchema.Turtle

/-! ## Pieces -/

/-- A piece of a local name. -/
inductive LocalPiece where
  /-- A character that stands for itself. -/
  | plain (c : Char)
  /-- A character behind a backslash. -/
  | escaped (c : Char)
  /-- A percent sign and two hexadecimal digits, which stay as they are. -/
  | percent (a b : Char)
  deriving DecidableEq

namespace LocalPiece

/-- The characters that a piece stands for. -/
def text : LocalPiece → List Char
  | plain c => [c]
  | escaped c => [c]
  | percent a b => ['%', a, b]

/-- The piece has a backslash. -/
def isEscaped : LocalPiece → Bool
  | escaped _ => true
  | _ => false

/-- Characters beyond ASCII that make a name doubtful: the last ones of the first plane, and those
whose code is a multiple of 0xFFFE or of 0xFFFF. Other characters that no IRI holds are let pass. -/
def isDoubtfulChar (c : Char) : Bool :=
  let n := c.toNat
  (0xFFF0 ≤ n && n ≤ 0xFFFF) || n % 0xFFFE == 0 || n % 0xFFFF == 0

/-- An identifier that ends with the piece may break the syntax of IRIs. -/
def isDoubtful : LocalPiece → Bool
  | plain c => c == ':' || isDoubtfulChar c
  | escaped c => "/?#@%".toList.contains c
  | percent _ _ => false

end LocalPiece

/-- The first piece of a text, and what follows it. `first` says that it begins a name. -/
def localPiece? (first : Bool) : List Char → Option (LocalPiece × List Char)
  | '%' :: a :: b :: rest =>
    if Iri.isHexDigit a && Iri.isHexDigit b then some (.percent a b, rest) else none
  | '\\' :: c :: rest => if isEscapable c then some (.escaped c, rest) else none
  | c :: rest =>
    let allowed := if first then isNameStart c || c.isDigit else isNameChar c || c == '.'
    if c == ':' || allowed then some (.plain c, rest) else none
  | [] => none

/-- The pieces at the beginning of a text, and what follows them. Every piece takes a character, so
that `fuel` of the length of the text is enough. -/
def readPieces (fuel : Nat) (first : Bool) (text : List Char) : List LocalPiece × List Char :=
  match fuel with
  | 0 => ([], text)
  | fuel + 1 =>
    match localPiece? first text with
    | none => ([], text)
    | some (piece, rest) =>
      let (pieces, behind) := readPieces fuel false rest
      (piece :: pieces, behind)

/-! ## Names -/

/-- A local name. -/
structure LocalName where
  /-- Its characters, without backslashes. -/
  text : List Char
  /-- An identifier that ends with the name may break the syntax of IRIs. -/
  isDoubtful : Bool

/-- The name has no characters, as behind a prefix that is declared. -/
def LocalName.isEmpty (name : LocalName) : Bool := name.text.isEmpty

/-- The characters that pieces stand for. -/
def textOf (pieces : List LocalPiece) : List Char := pieces.flatMap LocalPiece.text

/-- A list up to the last item that is not of a kind, and the items of that kind behind it. -/
def splitEnd {α : Type} (p : α → Bool) (items : List α) : List α × List α :=
  ((items.reverse.dropWhile p).reverse, (items.reverse.takeWhile p).reverse)

/-- The end of a text that takes `size` bytes, if it begins between two characters. -/
def endOfSize? (size : Nat) : List Char → Option (List Char)
  | [] => if size = 0 then some [] else none
  | c :: rest =>
    if (String.ofList (c :: rest)).utf8ByteSize = size then some (c :: rest)
    else endOfSize? size rest

/-- A name with a backslash that takes all of a text, and what is left of the text. The name keeps
its pieces up to the last one with a backslash, without the dots at the end of these; for each such
dot one byte at the end of the text is left, and the rest of the text is dropped. -/
def cutAtEnd? (pieces : List LocalPiece) (text : List Char) : Option (List Char × List Char) := do
  let (kept, _) := splitEnd (!LocalPiece.isEscaped ·) pieces
  let (name, dots) := splitEnd (· == '.') (textOf kept)
  return (name, ← endOfSize? dots.length text)

/-- The local name at the beginning of a text, and what follows it. The name may be empty. -/
def readLocalName? (text : List Char) : Option (LocalName × List Char) := do
  let (pieces, behind) := readPieces text.length true text
  let (name, behind) ←
    if behind.isEmpty && pieces.any LocalPiece.isEscaped then cutAtEnd? pieces text
    else
      let (kept, dots) := splitEnd (· == .plain '.') pieces
      pure (textOf kept, textOf dots ++ behind)
  return (⟨name, pieces.any LocalPiece.isDoubtful⟩, behind)

end ShapeSchema.Turtle
