import ShapeSchema.Proofs.ScriptReading

/-!
# The lines of a script

A script has a line for each of its commands, between lines that are the same for all documents. A
command that says that a label is not there is a comment, and all others are statements. Comments
take texts as they are, and one with a line break is over before its end, so that what follows the
break is read as something else. Apart from that, the lines of a script are read as they were
written.

## Main definitions

* `ShapeSchema.Cypher.Writes` — how lines are written.
* `ShapeSchema.Cypher.Command.line`, `ShapeSchema.Cypher.framed` — the line that a command is, and
  the lines around them.

## Main results

* `ShapeSchema.Cypher.Writes.reads` — lines are read as they were written.
* `ShapeSchema.Cypher.writes_script`, `ShapeSchema.Cypher.lines?_script` — the lines of a script.
* `ShapeSchema.Cypher.statements?_script` — its statements.
-/

namespace ShapeSchema.Cypher

/-! ## Lines -/

/-- A comment with a line break would be over before its end. -/
def Line.Unbroken : Line → Prop
  | comment text => '\n' ∉ text
  | _ => True

instance : DecidablePred Line.Unbroken
  | .comment text => inferInstanceAs (Decidable ('\n' ∉ text))
  | .blank | .statement _ => isTrue trivial

/-- How lines are written, one behind the other. A statement is written by any text that is read as
this statement, whatever follows it. -/
inductive Writes : List Line → List Char → Prop where
  /-- No lines. -/
  | nil : Writes [] []
  /-- An empty line. -/
  | blank {lines : List Line} {text : List Char} (h : Writes lines text) :
      Writes (.blank :: lines) ('\n' :: text)
  /-- A comment. -/
  | comment (line : List Char) {lines : List Line} {text : List Char} (h : Writes lines text) :
      Writes (.comment line :: lines) ('/' :: '/' :: (line ++ '\n' :: text))
  /-- A statement. -/
  | statement {s : Statement} {a : List Char} {lines : List Line} {text : List Char}
      (ha : ∀ rest, readStatement (a ++ rest) = some (s, rest)) (h : Writes lines text) :
      Writes (.statement s :: lines) (a ++ text)

namespace Writes

variable {lines lines' : List Line} {text text' : List Char}

/-- Lines behind other lines are written behind them. -/
theorem append (h : Writes lines text) (h' : Writes lines' text') :
    Writes (lines ++ lines') (text ++ text') := by
  induction h with
  | nil => exact h'
  | blank _ ih => exact .blank ih
  | comment line _ ih => simpa using Writes.comment line ih
  | statement ha _ ih =>
    rw [List.append_assoc]
    exact .statement ha ih

/-- A statement is the first line of a text that begins with it: such a text is not empty, and
begins neither with the end of a line nor with a comment. -/
private theorem readLines_of_readStatement {statement : Statement}
    (h : readStatement text = some (statement, text')) (fuel : Nat) :
    readLines (fuel + 1) text = (readLines fuel text').map (.statement statement :: ·) := by
  rw [readLines, h]
  · rw [Option.map_eq_bind]
    rfl
  · rintro rfl
    cases h
  · rintro rest rfl
    cases h
  · rintro rest rfl
    cases h

/-- The end of a comment without a line break. -/
private theorem span_comment {line : List Char} (h : '\n' ∉ line) (text : List Char) :
    (line ++ '\n' :: text).takeWhile (· ≠ '\n') = line ∧
      (line ++ '\n' :: text).dropWhile (· ≠ '\n') = '\n' :: text := by
  have hother : ∀ c ∈ line, decide (c ≠ '\n') = true := fun c hc =>
    decide_eq_true fun heq => h (heq ▸ hc)
  rw [List.takeWhile_append_of_pos hother, List.dropWhile_append_of_pos hother]
  exact ⟨List.append_nil line, rfl⟩

/-- **Lines** are read as they were written, if no comment has a line break.

**Proof sketch.** Induction on the lines. The first line is recognized by what the text begins with,
and what is left is shorter. -/
theorem reads (h : Writes lines text) (hlines : ∀ line ∈ lines, line.Unbroken) {fuel : Nat}
    (hfuel : text.length ≤ fuel) : readLines fuel text = some lines := by
  induction h generalizing fuel with
  | nil => cases fuel <;> rfl
  | @blank lines text _ ih =>
    rw [List.forall_mem_cons] at hlines
    rw [List.length_cons] at hfuel
    obtain ⟨fuel, rfl⟩ := Nat.exists_eq_add_one_of_ne_zero (n := fuel) (by omega)
    rw [readLines, ih hlines.2 (Nat.le_of_succ_le_succ hfuel)]
    rfl
  | @comment line lines text _ ih =>
    rw [List.forall_mem_cons] at hlines
    obtain ⟨hline, hrest⟩ := span_comment hlines.1 text
    simp only [List.length_cons, List.length_append] at hfuel
    obtain ⟨fuel, rfl⟩ := Nat.exists_eq_add_one_of_ne_zero (n := fuel) (by omega)
    have hfuel : text.length ≤ fuel := by omega
    rw [readLines, hline, hrest, List.drop_one, List.tail_cons, ih hlines.2 hfuel]
    rfl
  | @statement s a lines text ha _ ih =>
    rw [List.forall_mem_cons] at hlines
    have hlength : 0 < a.length := by
      refine List.length_pos_iff.2 ?_
      rintro rfl
      cases ha []
    rw [List.length_append] at hfuel
    obtain ⟨fuel, rfl⟩ := Nat.exists_eq_add_one_of_ne_zero (n := fuel) (by omega)
    have hfuel : text.length ≤ fuel := by omega
    rw [readLines_of_readStatement (ha text), ih hlines.2 hfuel]
    rfl

end Writes

/-! ## Scripts -/

/-- The statement that creates a node. -/
def Statement.ofNode (label : String) (entries : List (String × String)) : Statement :=
  .create (.plain (variableName label.toList)) (.of label.toList) (mapOf entries)

/-- The statement that creates a relationship. -/
def Statement.ofRelationship (source type target : String) (entries : List (String × String)) :
    Statement :=
  .connect (.plain ['a'], .of source.toList) (.plain ['b'], .of target.toList) (.plain ['a'])
    (.plain ['r']) (.plain (typeName type.toList)) (mapOf entries) (.plain ['b'])

/-- The comment for labels that are not there. -/
def skippedComment (source type target : String) : List Char :=
  " Skipping relationship ".toList ++ type.toList ++ " from ".toList ++ source.toList ++
    " to ".toList ++ target.toList ++ " - one or both labels not found in schema".toList

/-- The comment for labels that are not there is one line, with its end. -/
private theorem Command.text_skipped (source type target : String) :
    (Command.skipped source type target).text =
      '/' :: '/' :: (skippedComment source type target ++ ['\n']) := by
  have hopen : "// Skipping relationship ".toList =
      '/' :: '/' :: " Skipping relationship ".toList := by decide
  have hclose : " - one or both labels not found in schema\n".toList =
      " - one or both labels not found in schema".toList ++ ['\n'] := by decide
  -- Variables stand for the literals, which would be compared character by character otherwise.
  have hassoc : ∀ {start stop : List Char} (skipping type source target missing : List Char),
      start = '/' :: '/' :: skipping → stop = missing ++ ['\n'] →
        start ++ type ++ " from ".toList ++ source ++ " to ".toList ++ target ++ stop =
          '/' :: '/' :: (skipping ++ type ++ " from ".toList ++ source ++ " to ".toList ++ target ++
            missing ++ ['\n']) := by
    rintro _ _ skipping type source target missing rfl rfl
    simp only [List.append_assoc, List.cons_append]
  exact hassoc _ _ _ _ _ hopen hclose

/-- The line that a command is. -/
def Command.line : Command → Line
  | c@(node label _ _) => .statement (.ofNode label c.entries)
  | c@(relationship source type target _) =>
    .statement (.ofRelationship source type target c.entries)
  | skipped source type target => .comment (skippedComment source type target)

/-- The statement of the line that a command is, is that of the command. -/
theorem Command.statement?_line (c : Command) : c.line.statement? = c.statement? := by
  cases c <;> rfl

/-- Commands are written as their lines. -/
theorem Writes.flatMap_text (commands : List Command) :
    Writes (commands.map Command.line) (commands.flatMap Command.text) := by
  induction commands with
  | nil => exact .nil
  | cons command commands ih =>
    rw [List.map_cons, List.flatMap_cons]
    cases command with
    | node label colour types => exact .statement (Command.readStatement_node label colour types) ih
    | relationship source type target types =>
      exact .statement (Command.readStatement_relationship source type target types) ih
    | skipped source type target =>
      rw [Command.text_skipped, List.cons_append, List.cons_append, List.append_assoc]
      exact .comment (skippedComment source type target) ih

/-- The lines of a part of a script below its title. Where there are none, a comment says so. -/
def titled (title placeholder : String) (lines : List Line) : List Line :=
  .comment title.toList ::
    if lines.isEmpty then [.comment placeholder.toList] else lines

/-- The lines before the commands. -/
def headerLines : List Line :=
  [.comment " Uncomment to clear the database before import".toList,
    .comment " MATCH (n) DETACH DELETE n;".toList, .blank]

/-- The lines of a script, with those for its nodes and those for its relationships. -/
def framed (nodes relationships : List Line) : List Line :=
  headerLines ++ titled " Create nodes" " No nodes found in schema" nodes ++
    .blank :: titled " Create relationships" " No relationships found in schema" relationships

/-- A comment that is a line of its own. -/
theorem Writes.ofComment (line : String) (text : List Char)
    (h : text = '/' :: '/' :: (line.toList ++ ['\n'])) : Writes [.comment line.toList] text :=
  h ▸ .comment line.toList .nil

/-- A part of a script is written as its title and its commands. -/
theorem Writes.titled {title placeholder : String} {titleText placeholderText : List Char}
    (htitle : titleText = '/' :: '/' :: (title.toList ++ ['\n']))
    (hplaceholder : placeholderText = '/' :: '/' :: (placeholder.toList ++ ['\n']))
    {empty : Bool} {commands : List Command} (hempty : empty = commands.isEmpty) :
    Writes (Cypher.titled title placeholder (commands.map Command.line))
      (titleText ++ if empty then placeholderText else commands.flatMap Command.text) := by
  have hlines : Writes (if empty then [.comment placeholder.toList] else commands.map Command.line)
      (if empty then placeholderText else commands.flatMap Command.text) := by
    cases empty with
    | true => exact .ofComment placeholder placeholderText hplaceholder
    | false => exact .flatMap_text commands
  rw [Cypher.titled, List.isEmpty_map, ← hempty]
  exact (ofComment title titleText htitle).append hlines

/-- There are commands for nodes just if there are nodes. -/
private theorem isEmpty_nodeCommands (d : Document) :
    d.nodes.isEmpty = (nodeCommands d).isEmpty := by
  cases hnodes : d.nodes <;> simp [nodeCommands, hnodes, firstsBy]

/-- There are commands for relationships just if there are relationships. -/
private theorem isEmpty_relationshipCommands (d : Document) :
    d.relationships.isEmpty = (relationshipCommands d).isEmpty := by
  cases hrelationships : d.relationships <;> simp [relationshipCommands, hrelationships, firstsBy]

/-- **Scripts** are written as the lines of their commands. -/
theorem writes_script (d : Document) :
    Writes (framed ((nodeCommands d).map Command.line) ((relationshipCommands d).map Command.line))
      (script d).toList := by
  have hheader : Writes headerLines header := by
    have hlines : header = "// Uncomment to clear the database before import\n".toList ++
        ("// MATCH (n) DETACH DELETE n;\n".toList ++ ['\n']) := by decide
    have hfirst := Writes.ofComment " Uncomment to clear the database before import"
      "// Uncomment to clear the database before import\n".toList (by decide)
    have hsecond := Writes.ofComment " MATCH (n) DETACH DELETE n;"
      "// MATCH (n) DETACH DELETE n;\n".toList (by decide)
    rw [hlines]
    exact hfirst.append (hsecond.append (.blank .nil))
  have hnodes : Writes (titled " Create nodes" " No nodes found in schema" _) (nodesText d) :=
    .titled (by decide) (by decide +kernel) (isEmpty_nodeCommands d)
  have hrelationships : Writes (titled " Create relationships"
      " No relationships found in schema" _) (relationshipsText d) :=
    .titled (by decide) (by decide +kernel) (isEmpty_relationshipCommands d)
  rw [toList_script]
  exact (hheader.append hnodes).append (.blank hrelationships)

/-- The statements among the lines of a part of a script are those of its lines. -/
private theorem filterMap_titled (title placeholder : String) (lines : List Line) :
    (titled title placeholder lines).filterMap Line.statement? =
      lines.filterMap Line.statement? := by
  cases lines <;> rfl

/-- No line around the commands is a statement. -/
private theorem filterMap_framed (nodes relationships : List Line) :
    (framed nodes relationships).filterMap Line.statement? =
      (nodes ++ relationships).filterMap Line.statement? := by
  have hheader : headerLines.filterMap Line.statement? = [] := rfl
  rw [framed, List.filterMap_append, List.filterMap_append, List.filterMap_append, hheader,
    filterMap_titled, List.filterMap_cons_none rfl, filterMap_titled, List.nil_append]

/-- The lines that no command is. -/
def fixedLines : List Line :=
  headerLines ++
    [.comment " Create nodes".toList, .comment " No nodes found in schema".toList,
      .comment " Create relationships".toList, .comment " No relationships found in schema".toList]

/-- Every line of a part is its title, its placeholder, or one of its lines. -/
private theorem mem_of_mem_titled {title placeholder : String} {lines : List Line} {line : Line}
    (h : line ∈ titled title placeholder lines) :
    line ∈ [.comment title.toList, .comment placeholder.toList] ∨ line ∈ lines := by
  rcases List.mem_cons.1 h with rfl | h
  · exact .inl List.mem_cons_self
  · split at h
    · exact .inl (List.mem_cons_of_mem _ h)
    · exact .inr h

/-- Every line of a script is fixed, or one of a command. -/
theorem mem_of_mem_framed {nodes relationships : List Line} {line : Line}
    (h : line ∈ framed nodes relationships) :
    line ∈ fixedLines ∨ line ∈ nodes ∨ line ∈ relationships := by
  rcases List.mem_append.1 h with h | h
  · rcases List.mem_append.1 h with h | h
    · exact .inl (List.mem_append_left _ h)
    · refine (mem_of_mem_titled h).imp (fun h => List.mem_append_right _ ?_) .inl
      exact List.mem_append_left [_, _] h
  · rcases List.mem_cons.1 h with rfl | h
    · exact .inl (List.mem_append_left _ (by simp [headerLines]))
    · refine (mem_of_mem_titled h).imp (fun h => List.mem_append_right _ ?_) .inr
      exact List.mem_append_right [_, _] h

/-- Fixed lines have no line breaks. -/
theorem Line.unbroken_fixedLines : ∀ line ∈ fixedLines, line.Unbroken := by decide

/-- A comment for labels that are not there has no line break if its texts have none. -/
private theorem unbroken_skipped {source type target : String} (htype : '\n' ∉ type.toList)
    (hsource : '\n' ∉ source.toList) (htarget : '\n' ∉ target.toList) :
    (Command.skipped source type target).line.Unbroken := by
  have hopen : '\n' ∉ " Skipping relationship ".toList := by decide
  have hfrom : '\n' ∉ " from ".toList := by decide
  have hto : '\n' ∉ " to ".toList := by decide
  have hclose : '\n' ∉ " - one or both labels not found in schema".toList := by decide
  have htypes := List.not_mem_append (List.not_mem_append hopen htype) hfrom
  have hends := List.not_mem_append (List.not_mem_append htypes hsource) hto
  exact List.not_mem_append (List.not_mem_append hends htarget) hclose

/-- No comment of a script has a line break, unless a text of a relationship that connects no labels
has one. -/
private theorem unbroken_script {d : Document}
    (h : ∀ r ∈ d.relationships, ¬ d.Connects r → r.OnOneLine) :
    ∀ line ∈ framed ((nodeCommands d).map Command.line) ((relationshipCommands d).map Command.line),
      line.Unbroken := by
  intro line hline
  rcases mem_of_mem_framed hline with hfixed | hnode | hrelationship
  · exact Line.unbroken_fixedLines line hfixed
  · obtain ⟨c, hc, rfl⟩ := List.mem_map.1 hnode
    obtain ⟨number, hnumber, rfl⟩ := List.mem_mapIdx.1 hc
    trivial
  · obtain ⟨c, hc, rfl⟩ := List.mem_map.1 hrelationship
    cases c with
    | node label colour types => trivial
    | relationship source type target types => trivial
    | skipped source type target =>
      obtain ⟨htype, hsource, htarget⟩ := onOneLine_of_skipped h source type target hc
      exact unbroken_skipped htype hsource htarget

/-- **Lines.** Unless a text of a relationship that connects no labels has a line break, the lines
of a script are those of its commands. -/
theorem lines?_script {d : Document} (h : ∀ r ∈ d.relationships, ¬ d.Connects r → r.OnOneLine) :
    lines? (script d) =
      some (framed ((nodeCommands d).map Command.line)
        ((relationshipCommands d).map Command.line)) :=
  (writes_script d).reads (unbroken_script h) (Nat.le_refl _)

/-- **Scripts.** Unless a text of a relationship that connects no labels has a line break, the
statements of a script are its commands without the comments. -/
theorem statements?_script {d : Document}
    (h : ∀ r ∈ d.relationships, ¬ d.Connects r → r.OnOneLine) :
    statements? (script d) =
      some ((nodeCommands d ++ relationshipCommands d).filterMap Command.statement?) := by
  have hline : Line.statement? ∘ Command.line = Command.statement? :=
    funext Command.statement?_line
  rw [statements?, lines?_script h, Option.map_some, filterMap_framed, ← List.map_append,
    List.filterMap_map, hline]

end ShapeSchema.Cypher
