import ShapeSchema.Cypher.Reader
import ShapeSchema.Proofs.Script

/-!
# Commands are read as they were meant

Every command of a script that is no comment is read as one statement, whatever follows it. Names
are read as the texts that they were made of, because what follows a name cannot belong to it, and
strings are read as these texts, because nothing in them ends them. The keys of a map are the
names that the node of a label or a relationship has of its own, and behind them those of the
document.

## Main definitions

* `ShapeSchema.Cypher.Name.of`, `ShapeSchema.Cypher.mapText` — how texts are written as names and as
  maps.
* `ShapeSchema.Cypher.Command.entries`, `ShapeSchema.Cypher.Command.statement?` — the properties
  that a command writes, and the statement that it is.

## Main results

* `ShapeSchema.Cypher.readName_identifier`, `ShapeSchema.Cypher.readString_stringText` — names and
  strings.
* `ShapeSchema.Cypher.readMap_mapText` — maps.
* `ShapeSchema.Cypher.Command.readStatement_text` — commands.
-/

namespace ShapeSchema.Cypher

/-! ## Names and strings -/

/-- How a text is written as a name. -/
def Name.of (text : List Char) : Name := if isPlainName text then .plain text else .quoted text

/-- A name stands for the text that it was made of. -/
theorem Name.text_of (text : List Char) : (Name.of text).text = text := by
  unfold of
  split <;> rfl

/-- What can follow a name: neither a character of plain names nor a grave accent. -/
def EndsName (rest : List Char) : Prop :=
  ∀ c ∈ rest.head?, Naming.isWordChar c = false ∧ c ≠ '\x60'

/-- Whether a name ends is seen from the first character that follows it. -/
theorem EndsName.append (start : String) {c : Char}
    (h : start.toList.head? = some c ∧ Naming.isWordChar c = false ∧ c ≠ '\x60')
    (rest : List Char) :
    EndsName (start.toList ++ rest) := by
  obtain ⟨hstart, hc⟩ := h
  obtain ⟨behind, hstart⟩ := List.head?_eq_some_iff.1 hstart
  rw [hstart]
  rintro _ ⟨⟩
  exact hc

/-- What ends a name does not begin with a grave accent. -/
theorem EndsName.accent_notMem {rest : List Char} (h : EndsName rest) : '\x60' ∉ rest.head? :=
  fun hc => (h _ hc).2 rfl

/-- A run of characters of plain names is read up to its end. -/
private theorem readName_wordChars {text rest : List Char}
    (htext : ∀ c ∈ text, Naming.isWordChar c = true)
    (hrest : EndsName rest) : readName (text ++ rest) = some (.plain text, rest) := by
  have hstop : rest.takeWhile Naming.isWordChar = [] ∧ rest.dropWhile Naming.isWordChar = rest := by
    cases rest with
    | nil => exact ⟨rfl, rfl⟩
    | cons c rest => simp [(hrest c rfl).1]
  have hhead : '\x60' ∉ (text ++ rest).head? := by
    cases text with
    | nil => exact hrest.accent_notMem
    | cons c text =>
      rintro ⟨⟩
      exact absurd (htext _ List.mem_cons_self) (by decide)
  rw [readName_of_head? hhead, List.takeWhile_append_of_pos htext,
    List.dropWhile_append_of_pos htext, hstop.1, hstop.2, List.append_nil]

/-- A quoted text is read up to the accent that is not doubled. -/
private theorem readQuoted_append {rest : List Char} (hrest : '\x60' ∉ rest.head?)
    (text : List Char) :
    readQuoted (text.flatMap (fun c => if c = '\x60' then ['\x60', '\x60'] else [c]) ++
      '\x60' :: rest) = some (text, rest) := by
  induction text with
  | nil => exact readQuoted_close hrest
  | cons c text ih =>
    rw [List.flatMap_cons, List.append_assoc]
    split
    · next hc =>
      rw [hc, List.cons_append, List.singleton_append, readQuoted_doubled, ih]
      rfl
    · next hc =>
      rw [List.singleton_append, readQuoted_cons hc, ih]
      rfl

/-- **Names.** A text that is written as a name is read as this name. -/
theorem readName_identifier (text : List Char) {rest : List Char} (hrest : EndsName rest) :
    readName (identifier text ++ rest) = some (Name.of text, rest) := by
  unfold identifier Name.of
  split
  · next h => exact readName_wordChars (wordChars_of_isPlainName h) hrest
  · rw [List.append_assoc, List.cons_append, List.singleton_append, readName,
      readQuoted_append hrest.accent_notMem]
    rfl

/-- **Strings.** A text that is written as a string is read as this text. -/
theorem readString_stringText (text rest : List Char) :
    readString (stringText text ++ rest) = some (text, rest) := by
  rw [stringText, List.append_assoc, List.cons_append, List.singleton_append, readString]
  induction text with
  | nil => rfl
  | cons c text ih =>
    rw [List.flatMap_cons, List.append_assoc, escapedChar]
    split
    · rw [List.cons_append, List.singleton_append, readQuotation_escaped, ih]
      rfl
    · next h =>
      rw [not_or] at h
      rw [List.singleton_append, readQuotation_cons h.1 h.2, ih]
      rfl

/-! ## Maps -/

/-- A text that is expected is passed by. -/
private theorem expect_append (start : String) (rest : List Char) :
    expect start (start.toList ++ rest) = some rest :=
  List.isPrefixOf?_eq_some_iff_append_eq.2 rfl

/-- The map of names and texts. -/
def mapOf (entries : List (String × String)) : PropertyMap :=
  entries.map fun (name, text) => (Name.of name.toList, text.toList)

/-- A key and its value are read back, whatever follows them. -/
private theorem readEntry_append (name text rest : List Char) :
    readEntry (identifier name ++ (": ".toList ++ (stringText text ++ rest))) =
      some ((Name.of name, text), rest) := by
  have hcolon : EndsName (": ".toList ++ (stringText text ++ rest)) := .append _ ⟨rfl, by decide⟩ _
  simp only [readEntry, readName_identifier name hcolon, Option.bind_eq_bind, Option.bind_some,
    expect_append, readString_stringText]
  rfl

/-- **Maps.** A map is read entry by entry, up to the brace that ends it. -/
private theorem readEntries_typesText {name text : String} {entries : List (String × String)}
    {fuel : Nat} (hfuel : entries.length < fuel) (rest : List Char) :
    readEntries fuel (identifier name.toList ++ (": ".toList ++ (stringText text.toList ++
      (typesText entries ++ ("\x7d".toList ++ rest))))) =
        some (mapOf ((name, text) :: entries), rest) := by
  induction entries generalizing name text fuel with
  | nil =>
    obtain ⟨fuel, rfl⟩ := Nat.exists_eq_add_one_of_ne_zero (Nat.ne_of_gt hfuel)
    rw [readEntries, readEntry_append]
    rfl
  | cons entry entries ih =>
    obtain ⟨name', text'⟩ := entry
    obtain ⟨fuel, rfl⟩ := Nat.exists_eq_add_one_of_ne_zero (Nat.ne_of_gt (Nat.zero_lt_of_lt hfuel))
    have hrest : typesText ((name', text') :: entries) ++ ("\x7d".toList ++ rest) =
        ',' :: ' ' :: (identifier name'.toList ++ (": ".toList ++ (stringText text'.toList ++
          (typesText entries ++ ("\x7d".toList ++ rest))))) := by
      simp [typesText]
    rw [readEntries, readEntry_append, hrest]
    show (readEntries fuel _).bind _ = _
    rw [ih (Nat.lt_of_succ_lt_succ hfuel)]
    rfl

/-- There are no more entries than characters for them. -/
private theorem length_le_length_typesText (entries : List (String × String)) :
    entries.length ≤ (typesText entries).length := by
  induction entries with
  | nil => exact Nat.zero_le _
  | cons entry entries ih =>
    obtain ⟨name, text⟩ := entry
    have hcons : typesText ((name, text) :: entries) =
        ',' :: ' ' :: (identifier name.toList ++ ": ".toList ++ stringText text.toList ++
          typesText entries) := rfl
    rw [hcons, List.length_cons, List.length_cons, List.length_cons, List.length_append]
    omega

/-- Names and texts between braces. The first of them has no comma in front of it. -/
def mapText (entries : List (String × String)) : List Char :=
  "\x7b".toList ++ (typesText entries).drop 2 ++ "\x7d".toList

/-- A map, cut into the parts that are read one after the other. -/
private theorem mapText_cons (name text : String) (entries : List (String × String)) :
    mapText ((name, text) :: entries) =
      ["\x7b".toList, identifier name.toList, ": ".toList, stringText text.toList,
        typesText entries, "\x7d".toList].flatten := by
  have hcons : (typesText ((name, text) :: entries)).drop 2 =
      identifier name.toList ++ ": ".toList ++ stringText text.toList ++ typesText entries := rfl
  simp only [mapText, hcons, List.flatten_cons, List.flatten_nil, List.append_nil,
    List.append_assoc]

/-- A map with its braces. -/
theorem readMap_mapText (name text : String) (entries : List (String × String))
    (rest : List Char) :
    readMap (mapText ((name, text) :: entries) ++ rest) =
      some (mapOf ((name, text) :: entries), rest) := by
  have hfuel : entries.length < (identifier name.toList ++ (": ".toList ++
      (stringText text.toList ++ (typesText entries ++ ("\x7d".toList ++ rest))))).length := by
    have hlength := length_le_length_typesText entries
    have hbrace : "\x7d".toList.length = 1 := rfl
    simp only [List.length_append]
    omega
  simp only [mapText_cons, List.flatten_cons, List.flatten_nil, List.append_nil,
    List.append_assoc]
  rw [readMap, expect_append]
  exact readEntries_typesText hfuel rest

/-! ## Commands -/

/-- A variable with its label or type is read back. -/
private theorem readTagged_append {var : List Char} (hvar : ∀ c ∈ var, Naming.isWordChar c = true)
    {tag : Name} {text rest : List Char} (htag : readName text = some (tag, rest)) :
    readTagged (var ++ (":".toList ++ text)) = some ((.plain var, tag), rest) := by
  have hcolon : EndsName (":".toList ++ text) := .append _ ⟨rfl, by decide⟩ _
  simp only [readTagged, readName_wordChars hvar hcolon, Option.bind_eq_bind, Option.bind_some,
    expect_append, htag]
  rfl

namespace Command

/-- The properties that a command writes: those that the writer adds itself, and behind them those
of the document. -/
def entries : Command → List (String × String)
  | node label colour types =>
    [("name", label), ("displayName", label), ("label", label), ("color", colour)] ++ types
  | relationship _ type _ types => ("name", type) :: types
  | skipped .. => []

/-- The statement that a command is. A comment is none. -/
def statement? : Command → Option Statement
  | c@(node label _ _) =>
    some (.create (.plain (variableName label.toList)) (.of label.toList) (mapOf c.entries))
  | c@(relationship source type target _) =>
    some (.connect (.plain ['a'], .of source.toList) (.plain ['b'], .of target.toList)
      (.plain ['a']) (.plain ['r']) (.plain (typeName type.toList)) (mapOf c.entries)
      (.plain ['b']))
  | skipped .. => none

/-- The text of the command of a node, cut into the parts that are read one after the other. -/
private theorem text_node (label colour : String) (types : List (String × String)) :
    (node label colour types).text =
      ["CREATE ".toList, "(".toList, variableName label.toList, ":".toList,
        identifier label.toList, " ".toList, mapText (node label colour types).entries,
        ");\n".toList].flatten := by
  have hopen : "CREATE (".toList = "CREATE ".toList ++ "(".toList := by decide
  have hname : " \x7bname: ".toList =
      " ".toList ++ ("\x7b".toList ++ (identifier "name".toList ++ ": ".toList)) := by decide
  have hdisplayName : ", displayName: ".toList =
      ", ".toList ++ (identifier "displayName".toList ++ ": ".toList) := by decide
  have hlabel : ", label: ".toList =
      ", ".toList ++ (identifier "label".toList ++ ": ".toList) := by decide
  have hcolour : ", color: ".toList =
      ", ".toList ++ (identifier "color".toList ++ ": ".toList) := by decide
  have hclose : "\x7d);\n".toList = "\x7d".toList ++ ");\n".toList := by decide
  unfold text
  simp only [entries, List.cons_append, List.nil_append, mapText_cons, typesText, hopen, hname,
    hdisplayName, hlabel, hcolour, hclose, List.flatMap_cons, List.flatten_cons, List.flatten_nil,
    List.append_nil, List.append_assoc]

/-- The text of the command of a relationship, cut into the parts that are read one after the
other. -/
private theorem text_relationship (source type target : String) (types : List (String × String)) :
    (relationship source type target types).text =
      ["MATCH ".toList, "(".toList, ['a'], ":".toList, identifier source.toList, "), (".toList,
        ['b'], ":".toList, identifier target.toList, ") CREATE (".toList, ['a'], ")-[".toList,
        ['r'], ":".toList, typeName type.toList, " ".toList,
        mapText (relationship source type target types).entries, "]->(".toList, ['b'],
        ");\n".toList].flatten := by
  have hopen : "MATCH (a:".toList =
      "MATCH ".toList ++ ("(".toList ++ (['a'] ++ ":".toList)) := by decide
  have hsecond : "), (b:".toList = "), (".toList ++ (['b'] ++ ":".toList) := by decide
  have hcreate : ") CREATE (a)-[r:".toList =
      ") CREATE (".toList ++ (['a'] ++ (")-[".toList ++ (['r'] ++ ":".toList))) := by decide
  have hname : " \x7bname: ".toList =
      " ".toList ++ ("\x7b".toList ++ (identifier "name".toList ++ ": ".toList)) := by decide
  have hclose : "\x7d]->(b);\n".toList =
      "\x7d".toList ++ ("]->(".toList ++ (['b'] ++ ");\n".toList)) := by decide
  unfold text
  simp only [entries, mapText_cons, hopen, hsecond, hcreate, hname, hclose, List.flatten_cons,
    List.flatten_nil, List.append_nil, List.append_assoc]

/-- **Nodes.** The command for a node is read as the statement that creates it. -/
theorem readStatement_node (label colour : String) (types : List (String × String))
    (rest : List Char) :
    readStatement ((node label colour types).text ++ rest) =
      some (.create (.plain (variableName label.toList)) (.of label.toList)
        (mapOf (node label colour types).entries), rest) := by
  have hlabel := EndsName.append " " ⟨rfl, by decide⟩
  have hmap : ∀ rest, readMap (mapText (node label colour types).entries ++ rest) = _ :=
    readMap_mapText _ _ _
  rw [text_node, readStatement]
  simp only [List.flatten_cons, List.flatten_nil, List.append_nil, List.append_assoc,
    expect_append, readCreate, hmap,
    readTagged_append (wordChars_variableName _) (readName_identifier _ (hlabel _)),
    Option.bind_eq_bind, Option.bind_some]
  rfl

/-- **Relationships.** The command for a relationship is read as the statement that creates it. -/
theorem readStatement_relationship (source type target : String) (types : List (String × String))
    (rest : List Char) :
    readStatement ((relationship source type target types).text ++ rest) =
      some (.connect (.plain ['a'], .of source.toList) (.plain ['b'], .of target.toList)
        (.plain ['a']) (.plain ['r']) (.plain (typeName type.toList))
        (mapOf (relationship source type target types).entries) (.plain ['b']), rest) := by
  have hsource := EndsName.append "), (" ⟨rfl, by decide⟩
  have htarget := EndsName.append ") CREATE (" ⟨rfl, by decide⟩
  have hstart := EndsName.append ")-[" ⟨rfl, by decide⟩
  have htype := EndsName.append " " ⟨rfl, by decide⟩
  have hstop := EndsName.append ");\n" ⟨rfl, by decide⟩
  have ha : ∀ c ∈ ['a'], Naming.isWordChar c = true := List.all_eq_true.1 (by decide)
  have hb : ∀ c ∈ ['b'], Naming.isWordChar c = true := List.all_eq_true.1 (by decide)
  have hr : ∀ c ∈ ['r'], Naming.isWordChar c = true := List.all_eq_true.1 (by decide)
  have hcreate : ∀ rest, expect "CREATE " ("MATCH ".toList ++ rest) = none := fun _ => rfl
  have hmap : ∀ rest,
      readMap (mapText (relationship source type target types).entries ++ rest) = _ :=
    readMap_mapText _ _ _
  rw [text_relationship, readStatement]
  simp only [List.flatten_cons, List.flatten_nil, List.append_nil, List.append_assoc, hcreate,
    expect_append, readConnect, readTagged_append ha (readName_identifier _ (hsource _)),
    readTagged_append hb (readName_identifier _ (htarget _)), readName_wordChars ha (hstart _),
    readTagged_append hr (readName_wordChars (wordChars_typeName _) (htype _)), hmap,
    readName_wordChars hb (hstop _), Option.bind_eq_bind, Option.bind_some]
  rfl

/-- **Commands.** A command that is no comment is read as the statement that it is, whatever follows
it. -/
theorem readStatement_text {c : Command} {statement : Statement} (h : c.statement? = some statement)
    (rest : List Char) : readStatement (c.text ++ rest) = some (statement, rest) := by
  cases c with
  | node label colour types =>
    cases h
    exact readStatement_node label colour types rest
  | relationship source type target types =>
    cases h
    exact readStatement_relationship source type target types rest
  | skipped source type target => cases h

end Command

end ShapeSchema.Cypher
