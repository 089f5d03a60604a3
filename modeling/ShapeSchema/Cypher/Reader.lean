import ShapeSchema.Cypher

/-!
# Reading scripts

A script is a sequence of statements with comments and empty lines between them. A statement either
creates a node, or matches two nodes and creates a relationship between two variables. Nodes have a
variable and a label, relationships a variable and a type, and what is created has a map of
properties.

Variables, labels, types and the keys of maps are names. A name stands between grave accents, where
a doubled accent stands for one, or it is as long a run of letters, digits and underscores as there
is. A run may be empty or begin with a digit, and then it is no legal name.

## Main definitions

* `ShapeSchema.Cypher.Name`, `ShapeSchema.Cypher.Name.IsLegal` — names, and those that are legal.
* `ShapeSchema.Cypher.readName`, `ShapeSchema.Cypher.readString`, `ShapeSchema.Cypher.readMap` — the
  parts of statements.
* `ShapeSchema.Cypher.Statement`, `ShapeSchema.Cypher.readStatement` — statements.
* `ShapeSchema.Cypher.lines?`, `ShapeSchema.Cypher.statements?` — the lines of a script, and the
  statements among them.
-/

namespace ShapeSchema.Cypher

/-! ## Names and strings -/

/-- A name in a script. -/
inductive Name where
  /-- A run of letters, digits and underscores. -/
  | plain (text : List Char)
  /-- A name between grave accents. -/
  | quoted (text : List Char)
  deriving DecidableEq

namespace Name

/-- What a name stands for. -/
def text : Name → List Char
  | plain text => text
  | quoted text => text

/-- A name is legal if it is quoted, or else has a character and does not begin with a digit. -/
def IsLegal : Name → Prop
  | plain text =>
    text ≠ [] ∧ (∀ c ∈ text, Naming.isWordChar c = true) ∧ ∀ c ∈ text.head?, c.isDigit = false
  | quoted _ => True

/-- Plain names are just those that need no quotation. -/
theorem isLegal_plain_iff (text : List Char) :
    (plain text).IsLegal ↔ isPlainName text = true := by
  cases text with
  | nil => exact ⟨fun h => absurd rfl h.1, fun h => nomatch h⟩
  | cons c text => simp [IsLegal, isPlainName, and_comm]

instance : DecidablePred IsLegal
  | plain text => decidable_of_iff _ (isLegal_plain_iff text).symm
  | quoted _ => isTrue trivial

end Name

/-- The text of a quoted name, up to the accent that ends it. -/
def readQuoted : List Char → Option (List Char × List Char)
  | [] => none
  | '\x60' :: '\x60' :: rest => (readQuoted rest).map fun (text, rest) => ('\x60' :: text, rest)
  | '\x60' :: rest => some ([], rest)
  | c :: rest => (readQuoted rest).map fun (text, rest) => (c :: text, rest)

/-- A name, and what follows it. -/
def readName : List Char → Option (Name × List Char)
  | '\x60' :: rest => (readQuoted rest).map fun (text, rest) => (.quoted text, rest)
  | text => some (.plain (text.takeWhile Naming.isWordChar), text.dropWhile Naming.isWordChar)

/-- The text of a string, up to the quotation mark that ends it. A backslash takes the next
character with it. -/
def readQuotation : List Char → Option (List Char × List Char)
  | [] => none
  | ['\\'] => none
  | '\\' :: c :: rest => (readQuotation rest).map fun (text, rest) => (c :: text, rest)
  | '\x27' :: rest => some ([], rest)
  | c :: rest => (readQuotation rest).map fun (text, rest) => (c :: text, rest)

/-- A string, and what follows it. -/
def readString : List Char → Option (List Char × List Char)
  | '\x27' :: rest => readQuotation rest
  | _ => none

/-! ### Basic lemmas -/

/-- Another character than an accent belongs to a quoted name. -/
theorem readQuoted_cons {c : Char} (h : c ≠ '\x60') (rest : List Char) :
    readQuoted (c :: rest) = (readQuoted rest).map fun (text, rest) => (c :: text, rest) := by
  rw [readQuoted]
  · exact fun _ hc _ => h hc
  · exact h

/-- Two accents stand for one. -/
theorem readQuoted_doubled (rest : List Char) :
    readQuoted ('\x60' :: '\x60' :: rest) =
      (readQuoted rest).map fun (text, rest) => ('\x60' :: text, rest) :=
  rfl

/-- An accent that no other one follows ends a quoted name. -/
theorem readQuoted_close {rest : List Char} (h : '\x60' ∉ rest.head?) :
    readQuoted ('\x60' :: rest) = some ([], rest) := by
  rw [readQuoted]
  rintro rest' rfl
  exact h rfl

/-- What does not begin with an accent is read as a plain name. -/
theorem readName_of_head? {text : List Char} (h : '\x60' ∉ text.head?) :
    readName text =
      some (.plain (text.takeWhile Naming.isWordChar), text.dropWhile Naming.isWordChar) := by
  rw [readName]
  rintro rest rfl
  exact h rfl

/-- A character that is neither a backslash nor a quotation mark belongs to a string. -/
theorem readQuotation_cons {c : Char} (hbackslash : c ≠ '\\') (hquote : c ≠ '\x27')
    (rest : List Char) :
    readQuotation (c :: rest) =
      (readQuotation rest).map fun (text, rest) => (c :: text, rest) := by
  rw [readQuotation]
  · exact fun hc _ => hbackslash hc
  · exact fun _ _ hc _ => hbackslash hc
  · exact hquote

/-- A backslash takes the next character with it. -/
theorem readQuotation_escaped (c : Char) (rest : List Char) :
    readQuotation ('\\' :: c :: rest) =
      (readQuotation rest).map fun (text, rest) => (c :: text, rest) :=
  rfl

/-! ## Maps -/

/-- The properties of a node or of a relationship, by their keys. -/
abbrev PropertyMap : Type := List (Name × List Char)

/-- What stands behind a given text. -/
def expect (start : String) (text : List Char) : Option (List Char) :=
  List.isPrefixOf? start.toList text

/-- A key with its value. -/
def readEntry (text : List Char) : Option ((Name × List Char) × List Char) := do
  let (key, text) ← readName text
  let text ← expect ": " text
  let (value, text) ← readString text
  return ((key, value), text)

/-- The entries of a map, up to the brace that ends it. There are at most as many as `fuel`. -/
def readEntries : (fuel : Nat) → List Char → Option (PropertyMap × List Char)
  | 0, _ => none
  | fuel + 1, text => do
    let (entry, text) ← readEntry text
    match text with
    | '\x7d' :: text => return ([entry], text)
    | ',' :: ' ' :: text =>
      let (entries, text) ← readEntries fuel text
      return (entry :: entries, text)
    | _ => none

/-- A map with one entry at least, and what follows it. -/
def readMap (text : List Char) : Option (PropertyMap × List Char) := do
  let text ← expect "\x7b" text
  readEntries text.length text

/-! ## Statements -/

/-- The statements of a script. -/
inductive Statement where
  /-- A node is created. -/
  | create (var label : Name) (map : PropertyMap)
  /-- Two nodes are matched, with a variable and a label each, and a relationship is created from
  one variable to another. -/
  | connect (first second : Name × Name) (source var type : Name) (map : PropertyMap)
      (target : Name)
  deriving DecidableEq

namespace Statement

/-- The variables of a statement. -/
def vars : Statement → List Name
  | create var _ _ => [var]
  | connect first second source var _ _ target => [first.1, second.1, source, var, target]

/-- The labels of a statement. -/
def labels : Statement → List Name
  | create _ label _ => [label]
  | connect first second .. => [first.2, second.2]

/-- The types of relationships in a statement. -/
def types : Statement → List Name
  | create .. => []
  | connect _ _ _ _ type _ _ => [type]

/-- The properties of what a statement creates. -/
def map : Statement → PropertyMap
  | create _ _ map => map
  | connect _ _ _ _ _ map _ => map

/-- The keys of these properties. -/
def keys (s : Statement) : List Name := s.map.map Prod.fst

end Statement

/-- A variable with a label, or with a type. -/
def readTagged (text : List Char) : Option ((Name × Name) × List Char) := do
  let (var, text) ← readName text
  let text ← expect ":" text
  let (tag, text) ← readName text
  return ((var, tag), text)

/-- A statement that creates a node, behind its first word. -/
def readCreate (text : List Char) : Option (Statement × List Char) := do
  let text ← expect "(" text
  let ((var, label), text) ← readTagged text
  let text ← expect " " text
  let (map, text) ← readMap text
  let text ← expect ");\n" text
  return (.create var label map, text)

/-- A statement that creates a relationship, behind its first word. -/
def readConnect (text : List Char) : Option (Statement × List Char) := do
  let text ← expect "(" text
  let (first, text) ← readTagged text
  let text ← expect "), (" text
  let (second, text) ← readTagged text
  let text ← expect ") CREATE (" text
  let (source, text) ← readName text
  let text ← expect ")-[" text
  let ((var, type), text) ← readTagged text
  let text ← expect " " text
  let (map, text) ← readMap text
  let text ← expect "]->(" text
  let (target, text) ← readName text
  let text ← expect ");\n" text
  return (.connect first second source var type map target, text)

/-- A statement, and what follows it. -/
def readStatement (text : List Char) : Option (Statement × List Char) :=
  match expect "CREATE " text with
  | some text => readCreate text
  | none => (expect "MATCH " text).bind readConnect

/-! ## Lines -/

/-- The lines of a script. The strings of a statement may have line breaks, so that it goes over
several lines of the text. -/
inductive Line where
  /-- An empty line. -/
  | blank
  /-- A comment, without the slashes that begin it. -/
  | comment (text : List Char)
  /-- A statement. -/
  | statement (s : Statement)
  deriving DecidableEq

/-- The statement of a line. -/
def Line.statement? : Line → Option Statement
  | statement s => some s
  | _ => none

/-- The comment of a line. -/
def Line.comment? : Line → Option (List Char)
  | comment text => some text
  | _ => none

/-- The lines of a text. There are at most as many as `fuel`. -/
def readLines : (fuel : Nat) → List Char → Option (List Line)
  | _, [] => some []
  | 0, _ => none
  | fuel + 1, '\n' :: text => (readLines fuel text).map (.blank :: ·)
  | fuel + 1, '/' :: '/' :: text =>
    (readLines fuel ((text.dropWhile (· ≠ '\n')).drop 1)).map
      (.comment (text.takeWhile (· ≠ '\n')) :: ·)
  | fuel + 1, text => do
    let (statement, text) ← readStatement text
    let lines ← readLines fuel text
    return .statement statement :: lines

/-- The lines of a script, with its comments. -/
def lines? (script : String) : Option (List Line) :=
  readLines script.toList.length script.toList

/-- The statements of a script. -/
def statements? (script : String) : Option (List Statement) :=
  (lines? script).map fun lines => lines.filterMap Line.statement?

end ShapeSchema.Cypher
