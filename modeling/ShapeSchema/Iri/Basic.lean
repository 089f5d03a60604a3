import ShapeSchema.Naming

/-!
# IRIs

Internationalized resource identifiers as they are met in graphs, and the characters that may
stand in them. An `Iri` is any text: graphs may hold identifiers that break the syntax, and only
some steps ask for a valid one (`ShapeSchema.Iri.check`).

## Main definitions

* `ShapeSchema.Iri` — an identifier.
* `ShapeSchema.Iri.isPlain`, `ShapeSchema.Iri.isPrivate` — classes of characters.
* `ShapeSchema.Iri.Fault` — why a text is no valid IRI.
-/

namespace ShapeSchema

/-- An identifier, valid or not. -/
structure Iri where
  /-- The characters of the identifier. -/
  text : String
  deriving DecidableEq, Inhabited

namespace Iri

/-- The local name of an identifier. -/
def localName (iri : Iri) : String := Naming.localName iri.text

/-- The namespace of an identifier. -/
def namespaceOf (iri : Iri) : String := Naming.namespaceOf iri.text

/-! ## Characters -/

/-- Hexadecimal digits. -/
def isHexDigit (c : Char) : Bool :=
  c.isDigit || ('a' ≤ c && c ≤ 'f') || ('A' ≤ c && c ≤ 'F')

/-- Characters beyond ASCII that are not private: `ucschar` of RFC 3987. -/
def isForeign (c : Char) : Bool :=
  let n := c.toNat
  (0xA0 ≤ n && n ≤ 0xD7FF) || (0xF900 ≤ n && n ≤ 0xFDCF) || (0xFDF0 ≤ n && n ≤ 0xFFEF)
    || (0x10000 ≤ n && n ≤ 0xDFFFF && n % 0x10000 ≤ 0xFFFD) || (0xE1000 ≤ n && n ≤ 0xEFFFD)

/-- Private-use characters: `iprivate` of RFC 3987. -/
def isPrivate (c : Char) : Bool :=
  let n := c.toNat
  (0xE000 ≤ n && n ≤ 0xF8FF) || (0xF0000 ≤ n && n ≤ 0xFFFFD) || (0x100000 ≤ n && n ≤ 0x10FFFD)

/-- ASCII characters that stand for themselves everywhere in an IRI: unreserved ones and the
sub-delimiters. -/
def isPlainAscii (c : Char) : Bool :=
  c.isAlpha || c.isDigit || "-._~!$&'()*+,;=".toList.contains c

/-- Characters that stand for themselves everywhere in an IRI. -/
def isPlain (c : Char) : Bool := isPlainAscii c || isForeign c

/-- Characters of a scheme behind its first letter. -/
def isSchemeChar (c : Char) : Bool :=
  c.isAlpha || c.isDigit || c == '+' || c == '-' || c == '.'

/-! ## Faults -/

/-- Why a text is no valid IRI. -/
inductive Fault where
  /-- It has no scheme. -/
  | noScheme
  /-- A character may not stand where it does. -/
  | badChar (c : Char)
  /-- A character may not stand in a host. -/
  | badHostChar (c : Char)
  /-- The host in brackets is no IPv6 address. -/
  | badAddress
  /-- A character behind the colon of a host is no digit. -/
  | badDigit (c : Char)
  /-- A percent sign is not followed by two hexadecimal digits; `following` holds the one or two
  characters that do follow. -/
  | badPercent (following : List Char)
  /-- Without an authority, the path begins with two slashes. -/
  | doubleSlash
  deriving DecidableEq

/-- What is said about a fault. -/
def Fault.message : Fault → String
  | noScheme => "No scheme found in an absolute IRI"
  | badChar c => "Invalid IRI code point '" ++ c.toString ++ "'"
  | badHostChar c => "Invalid character '" ++ c.toString ++ "' in host"
  | badAddress => "Invalid host IP (invalid IPv6 address syntax)"
  | badDigit c => "Invalid character '" ++ c.toString ++ "'"
  | badPercent following =>
    "Invalid IRI percent encoding '%" ++ String.ofList following ++ "'"
  | doubleSlash => "An IRI path is not allowed to start with // if there is no authority"

end Iri

end ShapeSchema
