import Mathlib.Data.List.Dedup
import ShapeSchema.Cypher
import ShapeSchema.Proofs.Naming

/-!
# Commands of a script

A script is read by the lexical rules of the database. Two slashes begin a comment, which ends with
its line. Between single quotation marks, a backslash takes the next character with it. Between
grave accents, a doubled accent stands for one. A semicolon anywhere else ends a command.

Texts of a document come into a script as strings, as names, as variables and types, and in
comments. Strings and names are escaped, and variables and types consist of letters, digits and
underscores, so that none of them ends or begins anything. Comments take texts as they are, and a
line break in one of them ends the comment: what stands behind it is read as a command.

## Main definitions

* `ShapeSchema.Cypher.Place`, `ShapeSchema.Cypher.Place.next` — the reader of a script.
* `ShapeSchema.Cypher.after`, `ShapeSchema.Cypher.ends` — the place behind a text, and how many
  commands end in it.
* `ShapeSchema.Cypher.Reads` — both at once.
* `ShapeSchema.Document.Connects` — a relationship between labels that are there.
* `ShapeSchema.Document.Relationship.OnOneLine` — a relationship that a comment can name.

## Main results

* `ShapeSchema.Cypher.isPart_stringText`, `ShapeSchema.Cypher.Reads.identifier` — strings and names.
* `ShapeSchema.Cypher.Command.reads_flatMap` — each command is read as one.
* `ShapeSchema.Cypher.countP_firstsBy` — how many members are the first with their key.
* `ShapeSchema.Cypher.countP_nodeCommands`, `ShapeSchema.Cypher.countP_relationshipCommands` — how
  many commands there are.
* `ShapeSchema.Cypher.reads_script` — how many commands end in a script.
* `ShapeSchema.Cypher.ends_script_brokenDocument` — a text that ends a comment.
-/

namespace ShapeSchema

namespace Document

/-- The labels of the nodes. -/
def labels (d : Document) : List String := d.nodes.map Node.label

/-- A relationship leads from a label of a node to another one. -/
def Connects (d : Document) (r : Relationship) : Prop := r.source ∈ d.labels ∧ r.target ∈ d.labels

instance (d : Document) : DecidablePred d.Connects := fun _ => inferInstanceAs (Decidable (_ ∧ _))

/-- What relationships are told apart by. -/
def Relationship.link (r : Relationship) : String × String × String := (r.source, r.type, r.target)

/-- No text that a relationship is told apart by has a line break. -/
def Relationship.OnOneLine (r : Relationship) : Prop :=
  '\n' ∉ r.type.toList ∧ '\n' ∉ r.source.toList ∧ '\n' ∉ r.target.toList

instance (r : Relationship) : Decidable r.OnOneLine := inferInstanceAs (Decidable (_ ∧ _))

end Document

namespace Cypher

/-! ## Reading a script -/

/-- Where the reader of a script is. -/
inductive Place where
  /-- In a command or between commands. -/
  | command
  /-- There, behind a slash. -/
  | slash
  /-- In a comment. -/
  | comment
  /-- Between single quotation marks. -/
  | string
  /-- There, behind a backslash. -/
  | escape
  /-- Between grave accents. -/
  | name
  /-- Behind a grave accent that ends a name unless another one follows. -/
  | accent
  deriving DecidableEq

namespace Place

/-- The place behind a character of a command. -/
def behind (c : Char) : Place :=
  if c = '/' then slash else if c = '\x27' then string else if c = '\x60' then name else command

/-- The place behind a character. -/
def next : Place → Char → Place
  | command, c => behind c
  | slash, c => if c = '/' then comment else behind c
  | comment, c => if c = '\n' then command else comment
  | string, c => if c = '\\' then escape else if c = '\x27' then command else string
  | escape, _ => string
  | name, c => if c = '\x60' then accent else name
  | accent, c => if c = '\x60' then name else behind c

/-- Whether a semicolon ends a command. -/
def isOutside : Place → Bool
  | command | slash | accent => true
  | comment | string | escape | name => false

end Place

/-- The place behind a text. -/
def after (p : Place) (text : List Char) : Place := text.foldl Place.next p

/-- The number of semicolons in a text that end commands. -/
def ends (p : Place) : List Char → Nat
  | [] => 0
  | c :: rest => (if p.isOutside && c == ';' then 1 else 0) + ends (p.next c) rest

/-- A text leads from one place to another, and so many commands end on the way. -/
structure Reads (p : Place) (text : List Char) (q : Place) (n : Nat) : Prop where
  /-- The place behind the text. -/
  place : after p text = q
  /-- The commands that end. -/
  count : ends p text = n

instance (p : Place) (text : List Char) (q : Place) (n : Nat) : Decidable (Reads p text q n) :=
  decidable_of_iff (after p text = q ∧ ends p text = n)
    ⟨fun h => ⟨h.1, h.2⟩, fun h => ⟨h.place, h.count⟩⟩

/-- A text can be read in two pieces. -/
theorem after_append (p : Place) (a b : List Char) : after p (a ++ b) = after (after p a) b :=
  List.foldl_append

/-- The commands that end in two pieces are counted piece by piece. -/
theorem ends_append (p : Place) (a b : List Char) :
    ends p (a ++ b) = ends p a + ends (after p a) b := by
  induction a generalizing p with
  | nil => exact (Nat.zero_add _).symm
  | cons c a ih =>
    rw [List.cons_append, ends, ends, ih, Nat.add_assoc]
    rfl

/-- Parts of a command: in none of them the command ends. -/
abbrev IsPart (text : List Char) : Prop := Reads .command text .command 0

section
variable {p q r : Place} {a b : List Char} {m n : Nat}

/-- A text is read one part after the other. -/
theorem Reads.append (ha : Reads p a q m) (hb : Reads q b r n) : Reads p (a ++ b) r (m + n) where
  place := by rw [after_append, ha.place, hb.place]
  count := by rw [ends_append, ha.place, ha.count, hb.count]

/-- Where no piece of a text leads away from the place, and no command ends in one, the text does
not lead away from it, and no command ends in it. -/
theorem Reads.flatMap {α : Type} {f : α → List Char} {l : List α}
    (h : ∀ a ∈ l, Reads p (f a) p 0) : Reads p (l.flatMap f) p 0 := by
  induction l with
  | nil => exact ⟨rfl, rfl⟩
  | cons a l ih =>
    rw [List.flatMap_cons]
    exact (h a List.mem_cons_self).append (ih fun b hb => h b (List.mem_cons_of_mem a hb))

end

/-! ## Strings and names -/

/-- The characters of a plain name. -/
theorem wordChars_of_isPlainName {text : List Char} (h : isPlainName text = true) :
    ∀ c ∈ text, Naming.isWordChar c = true := by
  cases text with
  | nil => cases h
  | cons c rest => exact List.all_eq_true.1 (Bool.and_eq_true_iff.1 h).2

/-- Characters of plain names have no meaning of their own. -/
private theorem isPart_of_wordChars {text : List Char} (h : ∀ c ∈ text, Naming.isWordChar c) :
    IsPart text := by
  rw [← List.flatMap_singleton' text]
  refine Reads.flatMap fun c hc => ?_
  have hother : ∀ d : Char, Naming.isWordChar d = false → c ≠ d := by
    rintro d hd rfl
    rw [h c hc] at hd
    cases hd
  have hslash := hother '/' (by decide)
  have hquote := hother '\x27' (by decide)
  have haccent := hother '\x60' (by decide)
  have hsemicolon := hother ';' (by decide)
  exact ⟨by simp [after, Place.next, Place.behind, hslash, hquote, haccent],
    by simp [ends, hsemicolon]⟩

/-- **Strings** are read as strings: no character ends one. -/
theorem isPart_stringText (text : List Char) : IsPart (stringText text) := by
  have hopen : Reads .command ['\x27'] .string 0 := ⟨rfl, rfl⟩
  have hclose : Reads .string ['\x27'] .command 0 := ⟨rfl, rfl⟩
  have htext : Reads .string (text.flatMap escapedChar) .string 0 := by
    refine Reads.flatMap fun c _ => ?_
    unfold escapedChar
    split
    · exact ⟨rfl, rfl⟩
    · next h =>
      rw [not_or] at h
      exact ⟨by simp [after, Place.next, h], by simp [ends, Place.isOutside]⟩
  exact (hopen.append htext).append hclose

/-- **Names** are read as names: no character ends one. What follows a name must be read behind a
grave accent as it is read behind a plain name. -/
theorem Reads.identifier {p q : Place} {front follow : List Char} {m n : Nat}
    (h : Reads p front .command m) (text : List Char)
    (hfollow : ∀ place ∈ [Place.command, .accent], Reads place follow q n) :
    Reads p (front ++ identifier text ++ follow) q (m + n) := by
  unfold Cypher.identifier
  split
  · next hname =>
    have hchars := wordChars_of_isPlainName hname
    exact (h.append (isPart_of_wordChars hchars)).append (hfollow .command (by decide))
  · have hopen : Reads .command ['\x60'] .name 0 := ⟨rfl, rfl⟩
    have hclose : Reads .name ['\x60'] .accent 0 := ⟨rfl, rfl⟩
    have htext : Reads .name
        (text.flatMap fun c => if c = '\x60' then ['\x60', '\x60'] else [c]) .name 0 := by
      refine Reads.flatMap fun c _ => ?_
      split
      · exact ⟨rfl, rfl⟩
      · next h => exact ⟨by simp [after, Place.next, h], by simp [ends, Place.isOutside]⟩
    exact (h.append ((hopen.append htext).append hclose)).append (hfollow .accent (by decide))

/-- Variables consist of characters of plain names. -/
theorem wordChars_variableName (label : List Char) :
    ∀ c ∈ variableName label, Naming.isWordChar c = true := by
  intro c hc
  have hmap : ∀ c ∈ label.map fun c => if c.isAlphanum then c.toLower else '_',
      Naming.isWordChar c := by
    intro c hc
    obtain ⟨d, -, rfl⟩ := List.mem_map.1 hc
    split
    · next h => rw [Naming.isWordChar, Naming.isAlphanum_toLower h, Bool.true_or]
    · rfl
  have hfront : ∀ c ∈ ['n', '_'], Naming.isWordChar c := List.all_eq_true.1 (by decide)
  unfold variableName at hc
  simp only at hc
  split at hc
  · exact hfront c hc
  · split at hc
    · exact (List.mem_append (s := ['n', '_']).1 hc).elim (hfront c) (hmap c)
    · exact hmap c hc

/-- So no command ends in a variable. -/
private theorem isPart_variableName (label : List Char) : IsPart (variableName label) :=
  isPart_of_wordChars (wordChars_variableName label)

/-- Types consist of characters of plain names. -/
theorem wordChars_typeName (type : List Char) :
    ∀ c ∈ typeName type, Naming.isWordChar c = true := by
  intro c hc
  obtain ⟨d, -, rfl⟩ := List.mem_map.1 hc
  split
  · next h =>
    rcases Bool.or_eq_true_iff.1 h with h | h
    · rw [Naming.isWordChar, Naming.isAlphanum_toUpper h, Bool.true_or]
    · rw [beq_iff_eq.1 h]
      rfl
  · rfl

/-- So no command ends in a type. -/
private theorem isPart_typeName (type : List Char) : IsPart (typeName type) :=
  isPart_of_wordChars (wordChars_typeName type)

/-- No command ends in the types of properties. -/
private theorem isPart_typesText (types : List (String × String)) : IsPart (typesText types) := by
  have hcomma : IsPart ", ".toList := by decide
  have hcolon : ∀ place ∈ [Place.command, .accent], Reads place ": ".toList .command 0 := by decide
  exact Reads.flatMap fun (name, type) _ =>
    (hcomma.identifier name.toList hcolon).append (isPart_stringText type.toList)

/-! ## Commands -/

namespace Command

/-- The command of a node ends once, at its end. -/
private theorem reads_node (label colour : String) (types : List (String × String)) :
    Reads .command (node label colour types).text .command 1 := by
  have hopen : IsPart "CREATE (".toList := by decide
  have hcolon : IsPart ":".toList := by decide
  have hname : ∀ place ∈ [Place.command, .accent],
      Reads place " \x7bname: ".toList .command 0 := by decide
  have hdisplayName : IsPart ", displayName: ".toList := by decide
  have hlabel : IsPart ", label: ".toList := by decide
  have hcolour : IsPart ", color: ".toList := by decide
  have hclose : Reads .command "\x7d);\n".toList .command 1 := by decide
  have htext := isPart_stringText label.toList
  have hfront := ((hopen.append (isPart_variableName label.toList)).append hcolon).identifier
    label.toList hname
  have hnames := ((((hfront.append htext).append hdisplayName).append htext).append hlabel).append
    htext
  exact (((hnames.append hcolour).append (isPart_stringText colour.toList)).append
    (isPart_typesText types)).append hclose

/-- The command of a relationship ends once, at its end. -/
private theorem reads_relationship (source type target : String) (types : List (String × String)) :
    Reads .command (relationship source type target types).text .command 1 := by
  have hopen : IsPart "MATCH (a:".toList := by decide
  have hsource : ∀ place ∈ [Place.command, .accent],
      Reads place "), (b:".toList .command 0 := by decide
  have htarget : ∀ place ∈ [Place.command, .accent],
      Reads place ") CREATE (a)-[r:".toList .command 0 := by decide
  have hname : IsPart " \x7bname: ".toList := by decide
  have hclose : Reads .command "\x7d]->(b);\n".toList .command 1 := by decide
  have hfront := (hopen.identifier source.toList hsource).identifier target.toList htarget
  have htype := ((hfront.append (isPart_typeName type.toList)).append hname).append
    (isPart_stringText type.toList)
  exact (htype.append (isPart_typesText types)).append hclose

/-- A text without line breaks does not end a comment. -/
private theorem reads_comment {line : List Char} (h : '\n' ∉ line) :
    Reads .comment line .comment 0 := by
  rw [← List.flatMap_singleton' line]
  refine Reads.flatMap fun c hc => ?_
  have hbreak : c ≠ '\n' := fun heq => h (heq ▸ hc)
  exact ⟨by simp [after, Place.next, hbreak], by simp [ends, Place.isOutside]⟩

/-- No command ends in a comment with texts without line breaks. -/
private theorem reads_skipped {source type target : String} (htype : '\n' ∉ type.toList)
    (hsource : '\n' ∉ source.toList) (htarget : '\n' ∉ target.toList) :
    Reads .command (skipped source type target).text .command 0 := by
  have hopen : Reads .command "// Skipping relationship ".toList .comment 0 := by decide
  have hfrom : Reads .comment " from ".toList .comment 0 := by decide
  have hto : Reads .comment " to ".toList .comment 0 := by decide
  have hclose : Reads .comment " - one or both labels not found in schema\n".toList .command 0 := by
    decide
  exact (((((hopen.append (reads_comment htype)).append hfrom).append
    (reads_comment hsource)).append hto).append (reads_comment htarget)).append hclose

/-- Comments are the commands that do nothing. -/
def isComment : Command → Bool
  | skipped .. => true
  | _ => false

/-- **Commands.** Where no text in a comment has a line break, one command ends for each command
that is no comment. -/
theorem reads_flatMap {commands : List Command}
    (h : ∀ source type target, skipped source type target ∈ commands →
      '\n' ∉ type.toList ∧ '\n' ∉ source.toList ∧ '\n' ∉ target.toList) :
    Reads .command (commands.flatMap text) .command (commands.countP (!·.isComment)) := by
  induction commands with
  | nil => exact ⟨rfl, rfl⟩
  | cons command commands ih =>
    have hrest := ih fun source type target hmem =>
      h source type target (List.mem_cons_of_mem _ hmem)
    rw [List.flatMap_cons, List.countP_cons, Nat.add_comm]
    refine Reads.append ?_ hrest
    cases command with
    | node label colour types => exact reads_node label colour types
    | relationship source type target types => exact reads_relationship source type target types
    | skipped source type target =>
      obtain ⟨htype, hsource, htarget⟩ := h source type target List.mem_cons_self
      exact reads_skipped htype hsource htarget

end Command

/-! ## The first members with their keys -/

section
variable {α κ : Type} [DecidableEq κ] {key : α → κ}

/-- The keys that are kept are those that were not seen before. -/
theorem mem_map_firstsBy {seen : List κ} {l : List α} {k : κ} :
    k ∈ (firstsBy key seen l).map key ↔ k ∈ l.map key ∧ k ∉ seen := by
  induction l generalizing seen with
  | nil => simp [firstsBy]
  | cons a l ih =>
    rw [firstsBy]
    split
    · next hseen =>
      rw [ih, List.map_cons, List.mem_cons]
      refine and_congr_left fun hk => ⟨.inr, ?_⟩
      rintro (rfl | hmem)
      · exact absurd hseen hk
      · exact hmem
    · next hseen =>
      rw [List.map_cons, List.mem_cons, ih, List.map_cons, List.mem_cons, List.mem_cons]
      by_cases hk : k = key a
      · simp [hk, hseen]
      · simp [hk]

/-- No key is kept twice. -/
theorem nodup_map_firstsBy (seen : List κ) (l : List α) :
    ((firstsBy key seen l).map key).Nodup := by
  induction l generalizing seen with
  | nil => exact List.nodup_nil
  | cons a l ih =>
    rw [firstsBy]
    split
    · exact ih seen
    · rw [List.map_cons, List.nodup_cons]
      exact ⟨fun hmem => (mem_map_firstsBy.1 hmem).2 List.mem_cons_self, ih _⟩

/-- What is kept is a member of the list. -/
theorem mem_of_mem_firstsBy {seen : List κ} {l : List α} {a : α} (h : a ∈ firstsBy key seen l) :
    a ∈ l := by
  induction l generalizing seen with
  | nil => cases h
  | cons b l ih =>
    rw [firstsBy] at h
    split at h
    · exact List.mem_cons_of_mem b (ih h)
    · rcases List.mem_cons.1 h with rfl | h
      · exact List.mem_cons_self
      · exact List.mem_cons_of_mem b (ih h)

/-- Among the members that are the first with their key, as many have a property of the key as there
are keys with it. -/
theorem countP_firstsBy (l : List α) {has : α → Bool} (hasKey : κ → Bool)
    (h : ∀ a, has a = hasKey (key a)) :
    (firstsBy key [] l).countP has = ((l.filter has).map key).dedup.length := by
  have hmap : ∀ l : List α, (l.filter has).map key = (l.map key).filter hasKey := by
    intro l
    rw [List.filter_map, show hasKey ∘ key = has from (funext h).symm]
  rw [List.countP_eq_length_filter, ← List.length_map (f := key), hmap, hmap]
  refine List.Perm.length_eq ?_
  rw [List.perm_ext_iff_of_nodup ((nodup_map_firstsBy [] l).filter _) (List.nodup_dedup _)]
  intro k
  rw [List.mem_filter, mem_map_firstsBy, List.mem_dedup, List.mem_filter]
  simp

end

/-! ## Scripts -/

/-- A label is there just if it is one of the labels of the document. -/
theorem hasLabel_iff (d : Document) (label : String) : hasLabel d label ↔ label ∈ d.labels := by
  simp [hasLabel, Document.node?, Document.labels]

/-- There is a command for each label, and none of them is a comment. -/
theorem countP_nodeCommands (d : Document) :
    (nodeCommands d).countP (!·.isComment) = d.labels.dedup.length := by
  have hnode : ∀ c ∈ nodeCommands d, (!c.isComment) = true := by
    intro c hc
    obtain ⟨number, hnumber, rfl⟩ := List.mem_mapIdx.1 hc
    rfl
  rw [List.countP_eq_length.2 hnode, nodeCommands, List.length_mapIdx, ← List.countP_true,
    countP_firstsBy d.nodes (fun _ => true) fun _ => rfl, List.filter_true]
  rfl

/-- Both labels are there just if the relationship connects labels of the document. -/
theorem connects_iff (d : Document) (r : Document.Relationship) :
    (hasLabel d r.source && hasLabel d r.target) = true ↔ d.Connects r := by
  rw [Bool.and_eq_true, hasLabel_iff, hasLabel_iff, Document.Connects]

/-- There is a command that is no comment for each triple whose labels are there. -/
theorem countP_relationshipCommands (d : Document) :
    (relationshipCommands d).countP (!·.isComment) =
      ((d.relationships.filter (d.Connects ·)).map (·.link)).dedup.length := by
  have hkeys : (firstsBy (·.link) [] d.relationships).countP (d.Connects ·) = _ :=
    countP_firstsBy d.relationships
      (fun link => decide (link.1 ∈ d.labels ∧ link.2.2 ∈ d.labels)) fun _ => rfl
  rw [← hkeys, relationshipCommands, List.countP_map]
  refine List.countP_congr fun r _ => ?_
  simp only [Function.comp_apply, connects_iff, decide_eq_true_eq]
  split <;> simp_all [Command.isComment]

/-- A comment is about a relationship that connects no labels. -/
private theorem exists_relationship_of_skipped {d : Document} {source type target : String}
    (h : .skipped source type target ∈ relationshipCommands d) :
    ∃ r ∈ d.relationships, ¬ d.Connects r ∧ r.link = (source, type, target) := by
  obtain ⟨r, hr, heq⟩ := List.mem_map.1 h
  split at heq
  · cases heq
  · next hnot =>
    cases heq
    exact ⟨r, mem_of_mem_firstsBy hr, mt (connects_iff d r).2 hnot, rfl⟩

/-- No comment has a line break, unless a text of a relationship that connects no labels has one. -/
theorem onOneLine_of_skipped {d : Document}
    (h : ∀ r ∈ d.relationships, ¬ d.Connects r → r.OnOneLine) :
    ∀ source type target, .skipped source type target ∈ relationshipCommands d →
      '\n' ∉ type.toList ∧ '\n' ∉ source.toList ∧ '\n' ∉ target.toList := by
  intro source type target hskipped
  obtain ⟨r, hr, hnot, hlink⟩ := exists_relationship_of_skipped hskipped
  cases hlink
  exact h r hr hnot

/-- The part for the nodes: one command ends for each label. -/
private theorem reads_nodesText (d : Document) :
    Reads .command (nodesText d) .command d.labels.dedup.length := by
  have hcommands : Reads .command ((nodeCommands d).flatMap Command.text) .command _ :=
    Command.reads_flatMap fun source type target h => by
      obtain ⟨number, hnumber, heq⟩ := List.mem_mapIdx.1 h
      cases heq
  rw [countP_nodeCommands] at hcommands
  have htitle : IsPart "// Create nodes\n".toList := by decide
  have hnone : IsPart "// No nodes found in schema\n".toList := by decide
  rw [← Nat.zero_add d.labels.dedup.length]
  refine htitle.append ?_
  split
  · next hempty =>
    rw [Document.labels, List.isEmpty_iff.1 hempty]
    exact hnone
  · exact hcommands

/-- The part for the relationships: one command ends for each triple whose labels are there, unless
a text in a comment has a line break. -/
private theorem reads_relationshipsText {d : Document}
    (h : ∀ r ∈ d.relationships, ¬ d.Connects r → r.OnOneLine) :
    Reads .command (relationshipsText d) .command
      ((d.relationships.filter (d.Connects ·)).map (·.link)).dedup.length := by
  have hcommands := Command.reads_flatMap (onOneLine_of_skipped h)
  rw [countP_relationshipCommands] at hcommands
  have htitle : IsPart "// Create relationships\n".toList := by decide
  have hnone : IsPart "// No relationships found in schema\n".toList := by decide
  rw [← Nat.zero_add (List.length _)]
  refine htitle.append ?_
  split
  · next hempty =>
    rw [List.isEmpty_iff.1 hempty]
    exact hnone
  · exact hcommands

/-- A script is its header, the commands for nodes, and those for relationships. -/
theorem toList_script (d : Document) :
    (script d).toList = header ++ nodesText d ++ '\n' :: relationshipsText d :=
  String.toList_ofList

/-- **One command for each label and for each triple.** Unless a text of a relationship that
connects no labels has a line break, so many commands end in a script, and it ends between
commands. -/
theorem reads_script (d : Document)
    (h : ∀ r ∈ d.relationships, ¬ d.Connects r → r.OnOneLine) :
    Reads .command (script d).toList .command
      (d.labels.dedup.length +
        ((d.relationships.filter (d.Connects ·)).map (·.link)).dedup.length) := by
  have hheader : IsPart header := by decide +kernel
  have hblank : IsPart ['\n'] := by decide
  rw [toList_script, ← List.singleton_append, ← List.append_assoc]
  have hnodes := (hheader.append (reads_nodesText d)).append hblank
  simpa using hnodes.append (reads_relationshipsText h)

/-- A label twice, and texts with quotation marks, accents, backslashes, slashes, line breaks and
semicolons; the last relationship leads to a label that is not there. -/
def quotedDocument : Document :=
  let label := "';\n\x60//\\"
  let types : Dict Document.Property := .ofList [("a\x60;\n", { datatype := "b';\\" })]
  { nodes := [{ label, properties := types }, { label }]
    relationships :=
      [{ type := "\n';", source := label, target := label, properties := types },
        { type := "\n';", source := label, target := label },
        { type := "WORKS_FOR;", source := "Person';", target := "Company\x60" }] }

/-- A document with marks and breaks in its texts has a script of two commands. -/
theorem reads_script_quotedDocument :
    (∀ r ∈ quotedDocument.relationships, ¬ quotedDocument.Connects r → r.OnOneLine) ∧
      Reads .command (script quotedDocument).toList .command 2 := by
  have hlines : ∀ r ∈ quotedDocument.relationships,
      ¬ quotedDocument.Connects r → r.OnOneLine := by
    decide +kernel
  have hcount : quotedDocument.labels.dedup.length +
      ((quotedDocument.relationships.filter (quotedDocument.Connects ·)).map
        (·.link)).dedup.length = 2 := by
    decide +kernel
  exact ⟨hlines, hcount ▸ reads_script quotedDocument hlines⟩

/-- A relationship between labels that are not there, with a line break in its type. -/
def brokenDocument : Document where
  relationships :=
    [{ type := "KNOWS\nMATCH (n) DETACH DELETE n; //", source := "Person", target := "Person" }]

/-- **Comments take texts as they are.** There is neither a label nor a relationship between labels,
but a command ends in the script: it is the second line of a type. -/
theorem ends_script_brokenDocument :
    brokenDocument.labels.dedup.length +
        ((brokenDocument.relationships.filter (brokenDocument.Connects ·)).map
          (·.link)).dedup.length = 0 ∧
      ends .command (script brokenDocument).toList = 1 := by
  rw [toList_script]
  decide +kernel

end Cypher

end ShapeSchema
