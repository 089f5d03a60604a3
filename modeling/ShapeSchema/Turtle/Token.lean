import ShapeSchema.Text.Digits
import ShapeSchema.Turtle.LocalName
import ShapeSchema.Rdf.LanguageTag

/-!
# Tokens of Turtle

A document is cut into tokens before it is read. Escapes are resolved here; identifiers are still
references, which the reader completes.

## Main definitions

* `ShapeSchema.Turtle.NumberKind`, `ShapeSchema.Turtle.Token` — the tokens.
* `ShapeSchema.Turtle.next?` — the first token of a text and what follows it.
* `ShapeSchema.Turtle.tokens?` — all the tokens of a text; `none` if it cannot be cut.
-/

namespace ShapeSchema.Turtle

/-- The three notations of numbers. -/
inductive NumberKind where
  | integer
  | decimal
  | double
  deriving DecidableEq

/-- The units that a document consists of. -/
inductive Token where
  /-- A reference between angle brackets. -/
  | reference (text : List Char)
  /-- A prefixed name. -/
  | prefixed (space : List Char) (name : LocalName)
  /-- The label of a blank node. -/
  | label (name : List Char)
  /-- A quoted text. -/
  | string (text : List Char)
  /-- A word behind an at sign: a language tag or the name of a directive. -/
  | atWord (word : List Char)
  /-- A number. -/
  | number (kind : NumberKind) (text : List Char)
  /-- A word without a colon. -/
  | word (text : List Char)
  /-- A punctuation mark. -/
  | mark (c : Char)
  /-- The two carets before a datatype. -/
  | carets

/-! ## Escapes -/

/-- The character with the given code, unless the code is half of a surrogate pair or too large. -/
def charOfCode? (n : Nat) : Option Char :=
  if n.isValidChar then some (Char.ofNat n) else none

/-- The character that `\u` or `\U` with its digits stands for, and what follows. -/
def codeEscape? : List Char → Option (Char × List Char)
  | 'u' :: a :: b :: c :: d :: rest => do
    let n ← Text.hexNumber? [a, b, c, d]
    return (← charOfCode? n, rest)
  | 'U' :: a :: b :: c :: d :: e :: f :: g :: h :: rest => do
    let n ← Text.hexNumber? [a, b, c, d, e, f, g, h]
    return (← charOfCode? n, rest)
  | _ => none

/-- The character that an escape in a quoted text stands for, and what follows. -/
def stringEscape? : List Char → Option (Char × List Char)
  | 't' :: rest => some ('\t', rest)
  | 'b' :: rest => some ('\x08', rest)
  | 'n' :: rest => some ('\n', rest)
  | 'r' :: rest => some ('\r', rest)
  | 'f' :: rest => some ('\x0c', rest)
  | '"' :: rest => some ('"', rest)
  | '\x27' :: rest => some ('\x27', rest)
  | '\\' :: rest => some ('\\', rest)
  | text => codeEscape? text

/-! ## Delimited tokens -/

/-- Puts a character before a text that was read. -/
def prepend (c : Char) (read : List Char × List Char) : List Char × List Char :=
  (c :: read.1, read.2)

/-- A reference up to its closing bracket, and what follows. Every step takes a character, so that
`fuel` of the length of the text is enough. -/
def readReference? (fuel : Nat) (text : List Char) : Option (List Char × List Char) :=
  match fuel, text with
  | 0, _ => none
  | _, [] => none
  | _, '>' :: rest => some ([], rest)
  | fuel + 1, '\\' :: rest => do
    let (c, rest) ← codeEscape? rest
    return prepend c (← readReference? fuel rest)
  | fuel + 1, c :: rest => (readReference? fuel rest).map (prepend c)

/-- A text up to the quotation mark that ends it, on one line, and what follows. -/
def readShort? (fuel : Nat) (quote : Char) (text : List Char) :
    Option (List Char × List Char) :=
  match fuel, text with
  | 0, _ => none
  | _, [] => none
  | fuel + 1, '\\' :: rest => do
    let (c, rest) ← stringEscape? rest
    return prepend c (← readShort? fuel quote rest)
  | fuel + 1, c :: rest =>
    if c = quote then some ([], rest)
    else if c = '\n' || c = '\r' then none
    else (readShort? fuel quote rest).map (prepend c)

/-- A text up to the three quotation marks that end it, and what follows. -/
def readLong? (fuel : Nat) (quote : Char) (text : List Char) :
    Option (List Char × List Char) :=
  match fuel, text with
  | 0, _ => none
  | _, [] => none
  | fuel + 1, '\\' :: rest => do
    let (c, rest) ← stringEscape? rest
    return prepend c (← readLong? fuel quote rest)
  | fuel + 1, c :: rest =>
    if [c] ++ rest.take 2 == [quote, quote, quote] then some ([], rest.drop 2)
    else (readLong? fuel quote rest).map (prepend c)

/-- A quoted text behind its first quotation mark, and what follows. -/
def readString? (quote : Char) (text : List Char) : Option (List Char × List Char) :=
  if text.take 2 == [quote, quote] then readLong? text.length quote (text.drop 2)
  else readShort? text.length quote text

/-! ## Names -/

/-- A prefixed name behind its colon, and what follows. -/
def readPrefixed? (space rest : List Char) : Option (Token × List Char) :=
  (readLocalName? rest).map fun (name, behind) => (.prefixed space name, behind)

/-- A prefixed name or a word that begins with `c`, and what follows. A percent sign or a
backslash that no local name allows is left for the next token, where it is refused. No prefix ends
with a dot, while the dots at the end of a word do not belong to it. -/
def readName? (c : Char) (rest : List Char) : Option (Token × List Char) :=
  if c = ':' then readPrefixed? [] rest
  else if isPrefixStart c then
    let (inner, behind) := rest.span fun d => isNameChar d || d == '.'
    let (word, dots) := splitEnd (· == '.') inner
    match behind with
    | ':' :: behind => if dots.isEmpty then readPrefixed? (c :: word) behind else none
    | behind => some (.word (c :: word), dots ++ behind)
  else none

/-- The label of a blank node behind `_:`, and what follows. -/
def readLabel? : List Char → Option (Token × List Char)
  | c :: rest =>
    if isNameStart c || c.isDigit then
      let (inner, behind) := spanLabel rest
      some (.label (c :: inner), behind)
    else none
  | [] => none

/-- A word behind an at sign, and what follows: letters, then letters and digits, where the first
digit stands behind a hyphen. A hyphen belongs to the word only before a letter or digit. `letters`
says that there was no hyphen yet. -/
def spanTag (letters : Bool) : List Char → List Char × List Char
  | [] => ([], [])
  | c :: rest =>
    if c.isAlpha || (!letters && c.isDigit) then prepend c (spanTag letters rest)
    else if c = '-' && rest.head?.any Char.isAlphanum then prepend c (spanTag false rest)
    else ([], c :: rest)

/-- A word behind an at sign, and what follows. -/
def readAt? (text : List Char) : Option (Token × List Char) :=
  if text.head?.any Char.isAlpha then
    let (word, behind) := spanTag true text
    some (.atWord word, behind)
  else none

/-! ## Numbers -/

/-- The digits at the beginning of a text, and what follows. -/
def spanDigits (text : List Char) : List Char × List Char :=
  (text.takeWhile Char.isDigit, text.dropWhile Char.isDigit)

/-- The sign at the beginning of a text, and what follows. -/
def spanSign : List Char → List Char × List Char
  | '+' :: rest => (['+'], rest)
  | '-' :: rest => (['-'], rest)
  | text => ([], text)

/-- A number at the beginning of a text, and what follows. A dot without digits behind it belongs
to the number only before an exponent. -/
def readNumber? (text : List Char) : Option (Token × List Char) :=
  let (sign, text) := spanSign text
  let (whole, rest) := spanDigits text
  let (dot, part, behind) :=
    match rest with
    | '.' :: rest =>
      let (part, behind) := spanDigits rest
      (['.'], part, behind)
    | rest => ([], [], rest)
  let mantissa := sign ++ whole ++ dot ++ part
  match behind with
  | e :: tail =>
    if e == 'e' || e == 'E' then
      let (expSign, tail) := spanSign tail
      let (exponent, tail) := spanDigits tail
      if exponent.isEmpty || (whole.isEmpty && part.isEmpty) then none
      else some (.number .double (mantissa ++ e :: expSign ++ exponent), tail)
    else plain sign whole dot part behind
  | [] => plain sign whole dot part behind
where
  /-- A number without an exponent. -/
  plain (sign whole dot part behind : List Char) : Option (Token × List Char) :=
    if !part.isEmpty then some (.number .decimal (sign ++ whole ++ dot ++ part), behind)
    else if whole.isEmpty then none
    else some (.number .integer (sign ++ whole), dot ++ behind)

/-! ## Documents -/

/-- Blanks between tokens. -/
def isSpace (c : Char) : Bool := c == ' ' || c == '\t' || c == '\n' || c == '\r'

/-- A text without the blanks and comments at its beginning; `comment` says that it begins inside
of one. -/
def skipSpace (comment : Bool) : List Char → List Char
  | [] => []
  | c :: rest =>
    if comment then skipSpace (!(c == '\n' || c == '\r')) rest
    else if isSpace c then skipSpace false rest
    else if c == '#' then skipSpace true rest
    else c :: rest

/-- The token that begins with the character `c`, and what follows it. -/
def next? (c : Char) (rest : List Char) : Option (Token × List Char) :=
  match c, rest with
  | '<', rest =>
    (readReference? (rest.length + 1) rest).map fun (text, behind) => (.reference text, behind)
  | '"', rest => (readString? '"' rest).map fun (text, behind) => (.string text, behind)
  | '\x27', rest => (readString? '\x27' rest).map fun (text, behind) => (.string text, behind)
  | '@', rest => readAt? rest
  | '^', '^' :: rest => some (.carets, rest)
  | '_', ':' :: rest => readLabel? rest
  | '.', d :: rest =>
    if d.isDigit then readNumber? ('.' :: d :: rest) else some (.mark '.', d :: rest)
  | c, rest =>
    if ".;,[]()".toList.contains c then some (.mark c, rest)
    else if c.isDigit || c == '+' || c == '-' then readNumber? (c :: rest)
    else readName? c rest

/-- The tokens of a text. Every token takes at least one character. -/
def tokensOf? (fuel : Nat) (text : List Char) : Option (List Token) :=
  match fuel, skipSpace false text with
  | _, [] => some []
  | 0, _ => none
  | fuel + 1, c :: rest => do
    let (token, behind) ← next? c rest
    return token :: (← tokensOf? fuel behind)

/-- All the tokens of a text. -/
def tokens? (text : List Char) : Option (List Token) :=
  tokensOf? (text.length + 1) text

end ShapeSchema.Turtle
