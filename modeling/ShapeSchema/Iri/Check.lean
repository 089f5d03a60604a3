import ShapeSchema.Iri.Basic
import ShapeSchema.Text.Split

/-!
# The syntax of IRIs

A text is checked from left to right against the grammar of RFC 3987, and the first place that
breaks it gives the fault. A text without a scheme is checked as a relative reference, so that a
fault in it counts before the missing scheme.

## Main definitions

* `ShapeSchema.Iri.checkReference` — the fault of a text as an IRI or a relative reference.
* `ShapeSchema.Iri.check` — the fault of a text as an IRI.
* `ShapeSchema.Iri.IsValid` — the identifiers without a fault.
-/

namespace ShapeSchema.Iri

/-- The outcome of a check. -/
abbrev Verdict := Except Fault Unit

/-! ## Parts that consist of certain characters -/

/-- What follows a percent sign begins with two hexadecimal digits. -/
def checkPercent (rest : List Char) : Verdict :=
  match rest with
  | c :: d :: _ => if isHexDigit c && isHexDigit d then .ok () else .error (.badPercent [c, d])
  | _ => .error (.badPercent rest)

/-- What stands behind a part of a text: the part reaches to the first character of the class
`ends`, and its characters have to be allowed or belong to percent encodings. -/
def behindPart (allowed ends : Char → Bool) : List Char → Except Fault (List Char)
  | [] => .ok []
  | c :: rest =>
    if ends c then .ok (c :: rest)
    else if c = '%' then do
      checkPercent rest
      behindPart allowed ends rest
    else if allowed c then behindPart allowed ends rest
    else .error (.badChar c)

/-- Characters of a path. -/
def isPathChar (c : Char) : Bool := isPlain c || c == ':' || c == '@' || c == '/'

/-- Characters of a fragment. -/
def isFragmentChar (c : Char) : Bool := isPathChar c || c == '?'

/-- Characters of a query. -/
def isQueryChar (c : Char) : Bool := isFragmentChar c || isPrivate c

/-- The marks before a query and before a fragment. -/
def isTailMark (c : Char) : Bool := c == '?' || c == '#'

/-- The marks behind an authority. -/
def isPathMark (c : Char) : Bool := c == '/' || isTailMark c

/-- A path, and the query and fragment that may follow it. -/
def checkPath (text : List Char) : Verdict := do
  let rest ← behindPart isPathChar isTailMark text
  let rest ←
    match rest with
    | '?' :: query => behindPart isQueryChar (· == '#') query
    | rest => pure rest
  let _ ← behindPart isFragmentChar (fun _ => false) (rest.drop 1)

/-! ## Hosts -/

/-- One to four hexadecimal digits. -/
def isHexGroup (group : List Char) : Bool :=
  1 ≤ group.length && group.length ≤ 4 && group.all isHexDigit

/-- A number from 0 to 255 without leading zeros. -/
def isOctet (text : List Char) : Bool :=
  match text with
  | [a] => a.isDigit
  | [a, b] => a != '0' && [a, b].all Char.isDigit
  | [a, b, c] =>
    a != '0' && [a, b, c].all Char.isDigit
      && (a.toNat - 48) * 100 + (b.toNat - 48) * 10 + (c.toNat - 48) ≤ 255
  | _ => false

/-- Four octets with dots between them. -/
def isDotted (text : List Char) : Bool :=
  let parts := List.splitOn '.' text
  parts.length == 4 && parts.all isOctet

/-- The number of 16-bit groups that a run of groups between colons stands for; `none` if it is
none. Where the address ends, `last`, an IPv4 address may stand for two groups. -/
def groupCount? (last : Bool) : List (List Char) → Option Nat
  | [] => some 0
  | [group] =>
    if isHexGroup group then some 1 else if last && isDotted group then some 2 else none
  | group :: groups => if isHexGroup group then (groupCount? last groups).map (· + 1) else none

/-- The text before and behind the first `::`. -/
def splitGap? : List Char → Option (List Char × List Char)
  | [] => none
  | ':' :: ':' :: rest => some ([], rest)
  | c :: rest => (splitGap? rest).map fun (before, after) => (c :: before, after)

/-- The groups of a run; an empty run has none. -/
def groupsOf (run : List Char) : List (List Char) :=
  if run.isEmpty then [] else List.splitOn ':' run

/-- The addresses of IPv6: eight groups, or fewer of them with one gap. -/
def isAddress (text : List Char) : Bool :=
  match splitGap? text with
  | none => groupCount? true (groupsOf text) == some 8
  | some (before, after) =>
    match groupCount? false (groupsOf before), groupCount? true (groupsOf after) with
    | some m, some n => m + n ≤ 7
    | _, _ => false

/-- The text before and behind the first character of a class; the character stays behind. -/
def breakAt (ends : Char → Bool) (text : List Char) : List Char × List Char :=
  (text.takeWhile fun c => !ends c, text.dropWhile fun c => !ends c)

/-- The address of a later version: `v`, hexadecimal digits, a dot and plain characters, which
have to be ASCII. -/
def checkFuture (text : List Char) : Verdict :=
  let (version, rest) := breakAt (· == '.') text
  match version.find? (fun c => !isHexDigit c) with
  | some c => .error (.badHostChar c)
  | none =>
    match rest.drop 1 with
    | [] => .error (.badHostChar ']')
    | c :: body =>
      if version.isEmpty then .error (.badHostChar c)
      else
        match (c :: body).find? (fun d => !(isPlainAscii d || d == ':')) with
        | some d => .error (.badHostChar d)
        | none => .ok ()

/-- What stands between brackets in a host. -/
def checkBracketed : List Char → Verdict
  | 'v' :: text => checkFuture text
  | 'V' :: text => checkFuture text
  | text => if isAddress text then .ok () else .error .badAddress

/-- The digits behind the colon of a host, and the path behind them. -/
def checkDigits : List Char → Verdict
  | [] => .ok ()
  | c :: rest =>
    if isPathMark c then checkPath (c :: rest)
    else if c.isDigit then checkDigits rest
    else .error (.badDigit c)

/-- A host, perhaps with digits behind a colon, and the path behind them. A bracket reaches to the
next closing bracket, whatever stands between. -/
def checkHost : List Char → Verdict
  | '[' :: text =>
    match text.dropWhile (· ≠ ']') with
    | [] => .error (.badHostChar '[')
    | _ :: behind => do
      checkBracketed (text.takeWhile (· ≠ ']'))
      match behind with
      | [] => .ok ()
      | ':' :: digits => checkDigits digits
      | c :: rest => if isPathMark c then checkPath (c :: rest) else .error (.badHostChar c)
  | text => do
    match ← behindPart isPlain (fun c => c == ':' || isPathMark c) text with
    | ':' :: digits => checkDigits digits
    | rest => checkPath rest

/-- An authority and the path behind it. With an `@` before any bracket it begins with user
information; the characters up to there are checked first in either case. -/
def checkAuthority (text : List Char) : Verdict := do
  match ← behindPart (fun c => isPlain c || c == ':')
      (fun c => c == '@' || c == '[' || isPathMark c) text with
  | '@' :: host => checkHost host
  | _ => checkHost text

/-! ## References -/

/-- What follows the scheme of an IRI. -/
def checkBehindScheme : List Char → Verdict
  | '/' :: '/' :: text => checkAuthority text
  | text => checkPath text

/-- A reference without a scheme. No colon may stand in its first segment. -/
def checkRelative : List Char → Verdict
  | '/' :: '/' :: text => checkAuthority text
  | text => do
    let rest ← behindPart (fun c => isPlain c || c == '@') isPathMark text
    checkPath rest

/-- The scheme of a text, and what follows its colon. -/
def splitScheme? (text : List Char) : Option (List Char × List Char) :=
  match text with
  | c :: _ =>
    if c.isAlpha then
      match text.dropWhile isSchemeChar with
      | ':' :: rest => some (text.takeWhile isSchemeChar, rest)
      | _ => none
    else none
  | [] => none

/-- The fault of a text as an IRI or a relative reference. `absolute` asks for an IRI. -/
def checkText (absolute : Bool) (text : List Char) : Verdict :=
  match splitScheme? text with
  | some (_, rest) => checkBehindScheme rest
  | none =>
    match text with
    | ':' :: _ => .error .noScheme
    | _ => do
      checkRelative text
      if absolute then .error .noScheme else .ok ()

/-- The fault of a text as an IRI or a relative reference. -/
def checkReference (text : List Char) : Verdict := checkText false text

/-- The fault of an identifier as an IRI. -/
def check (iri : Iri) : Verdict := checkText true iri.text.toList

/-- The identifiers that follow the syntax of IRIs. -/
def IsValid (iri : Iri) : Prop := iri.check = .ok ()

instance (iri : Iri) : Decidable iri.IsValid :=
  match h : iri.check with
  | .ok () => isTrue h
  | .error _ => isFalse fun h' => nomatch h.symm.trans h'

/-- The identifier with the given text, if it is valid. -/
def ofText? (text : String) : Option Iri :=
  if IsValid ⟨text⟩ then some ⟨text⟩ else none

end ShapeSchema.Iri
