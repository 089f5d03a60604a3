import ShapeSchema.Proofs.Disk
import ShapeSchema.Proofs.Documents
import ShapeSchema.Proofs.Naming

/-!
# Commands on a disk

A transformation writes the document of a schema and, if that is asked for, its script. The command
for scripts reads the document. The files that are written behind the document leave it as it is,
and it is read back from its text, so the script is the same.

## Main definitions

* `ShapeSchema.CommandLine.Disk.perform` — how a command ends on a disk.
* `ShapeSchema.CommandLine.Disk.storeAll?` — writing files of a folder one after the other.
* `ShapeSchema.CommandLine.OutputSettings.endings`, `ShapeSchema.CommandLine.OutputSettings.files` —
  the files that are asked for.
* `ShapeSchema.CommandLine.Disk.Holds` — the files of a result are there.
* `ShapeSchema.CommandLine.prepare` — what a transformation does before it writes.

## Main results

* `ShapeSchema.CommandLine.Disk.perform_bind`,
  `ShapeSchema.CommandLine.Disk.perform_storeOr_eq_ok` — commands step by step.
* `ShapeSchema.CommandLine.Disk.holds_of_storeResult` — the files that a transformation leaves.
* `ShapeSchema.CommandLine.perform_cypher_of_transform` — documents are read back, and the script of
  a stored document is the one that is written beside it.
-/

namespace ShapeSchema.CommandLine

namespace Disk

/-- How a command ends on a disk, and the disk behind it. -/
def perform {α : Type} (d : Disk) (command : Run (StateM Disk) α) : Except String α × Disk :=
  command.run.run d

variable {α β : Type} {d d' : Disk}

/-- The second step of a command is made on the disk behind the first one. -/
theorem perform_bind (d : Disk) (command : Run (StateM Disk) α) (next : α → Run (StateM Disk) β) :
    d.perform (command >>= next) =
      match d.perform command with
      | (.ok a, between) => between.perform (next a)
      | (.error message, between) => (.error message, between) := by
  rw [perform, ExceptT.run_bind, StateT.run_bind, perform]
  cases h : command.run.run d with
  | mk result between => cases result <;> rfl

/-- A command of two steps goes well if both do. -/
theorem perform_bind_eq_ok {command : Run (StateM Disk) α} {next : α → Run (StateM Disk) β}
    {b : β} :
    d.perform (command >>= next) = (.ok b, d') ↔
      ∃ a between, d.perform command = (.ok a, between) ∧
        between.perform (next a) = (.ok b, d') := by
  rw [perform_bind]
  split <;> simp_all

/-- What the system is asked for is what the disk gives. -/
theorem perform_ask (d : Disk) (action : StateM Disk α) :
    d.perform (ask action) = (.ok (action.run d).1, (action.run d).2) := rfl

/-- Giving back a value changes nothing. -/
theorem perform_pure_eq_ok {a b : α} : d.perform (pure a) = (.ok b, d') ↔ a = b ∧ d = d' := by
  show (Except.ok a, d) = (Except.ok b, d') ↔ _
  rw [Prod.mk.injEq, Except.ok.injEq]

/-- A command that fails does not go well. -/
theorem perform_throw_ne_ok (message : String) (a : α) :
    d.perform (throw message) ≠ (.ok a, d') :=
  nofun

/-- Writing a file goes well if a file can be there. -/
theorem perform_storeOr_eq_ok {words path content : String} {u : Unit} :
    d.perform (storeOr words path content) = (.ok u, d') ↔ d.store? path content = some d' := by
  have hkeep : (keepDisk (·.store? path content)).run d =
      ((d.store? path content).isSome, (d.store? path content).getD d) := by
    cases h : d.store? path content with
    | none => simp [keepDisk, h]; rfl
    | some e => simp [keepDisk, h]; rfl
  have hstore : d.perform (ask (Host.store path content)) =
      (.ok (d.store? path content).isSome, (d.store? path content).getD d) := by
    rw [perform_ask]
    exact congrArg (fun result : Bool × Disk => (Except.ok result.1, result.2)) hkeep
  rw [storeOr, perform_bind_eq_ok, hstore]
  cases d.store? path content with
  | none => simp [perform_throw_ne_ok]
  | some e => simp [perform_pure_eq_ok]

end Disk

/-! ## Names of files -/

/-- There is no slash in the parts of a path. -/
private theorem slash_not_mem_of_mem_parts {path name : String} (h : name ∈ Path.parts path) :
    '/' ∉ name.toList := by
  obtain ⟨piece, hpiece, rfl⟩ := List.mem_map.1 h
  rw [String.toList_ofList]
  exact fun hslash => (Text.of_mem_splitOn hpiece hslash).2 rfl

/-- What a name is without its extension stands at the start of the name. -/
private theorem slash_not_mem_stemOf {name : String} (h : '/' ∉ name.toList) :
    '/' ∉ (Path.stemOf name).toList := by
  unfold Path.stemOf
  split
  · exact h
  · next front rest hsplit =>
    rw [← Text.append_of_splitAfterLast? hsplit, List.mem_append, not_or] at h
    split
    · rw [← Text.append_of_splitAfterLast? hsplit, List.mem_append, not_or]
      exact h
    · rw [String.toList_ofList]
      exact fun hslash => h.1 ((List.dropLast_sublist _).subset hslash)

/-- There is no slash in the stem of a path. -/
theorem slash_not_mem_stem? {path stem : String} (h : Path.stem? path = some stem) :
    '/' ∉ stem.toList := by
  unfold Path.stem? at h
  split at h
  · cases h
  · cases h
  · next name others _ heq =>
    cases h
    have hname : name ∈ (Path.parts path).reverse :=
      (List.dropWhile_sublist _).subset (heq ▸ List.mem_cons_self)
    exact slash_not_mem_stemOf (slash_not_mem_of_mem_parts (List.mem_reverse.1 hname))

/-! ## Files one after the other -/

section

variable {d d' : Disk} {folder stem ending other content : String}

/-- Writing the file with one ending does not change the files with the others. -/
private theorem fetch_ending (hstem : '/' ∉ stem.toList) (hending : Disk.IsOutputName ending)
    (h : d.store? (Path.within folder (stem ++ ending)) content = some d')
    (hother : Disk.IsOutputName other) :
    d'.fetch (Path.within folder (stem ++ other)) =
      if other = ending then .text content else d.fetch (Path.within folder (stem ++ other)) := by
  rw [Disk.fetch_of_store? (hending.append hstem) h (hother.append hstem)]
  simp only [String.append_right_inj]

end

namespace Disk

/-- Writes files of a folder one after the other. A file is given by the ending of its name and its
text. -/
def storeAll? (folder stem : String) : List (String × String) → Disk → Option Disk
  | [], d => some d
  | (ending, text) :: files, d =>
    (d.store? (Path.within folder (stem ++ ending)) text).bind (storeAll? folder stem files)

section

variable {d d' : Disk} {folder stem text : String} {files : List (String × String)}

/-- What is read behind all files: the text of the last one with that name, or what was there. -/
theorem fetch_of_storeAll? (hstem : '/' ∉ stem.toList)
    (hfiles : ∀ file ∈ files, IsOutputName file.1)
    (h : storeAll? folder stem files d = some d') {other : String} (hother : IsOutputName other) :
    d'.fetch (Path.within folder (stem ++ other)) =
      files.foldl (fun found file => if other = file.1 then .text file.2 else found)
        (d.fetch (Path.within folder (stem ++ other))) := by
  induction files generalizing d with
  | nil =>
    cases h
    rfl
  | cons file files ih =>
    obtain ⟨ending, text⟩ := file
    obtain ⟨hending, hfiles⟩ := List.forall_mem_cons.1 hfiles
    obtain ⟨between, hstore, h⟩ := Option.bind_eq_some_iff.1 h
    rw [List.foldl_cons, ih hfiles h, fetch_ending hstem hending hstore hother]

end

end Disk

/-! ## Results -/

/-- How the names of the files end that are asked for. -/
def OutputSettings.endings (output : OutputSettings) : List String :=
  ["_pg_schema.json", "_transformed.ttl"] ++ (if output.cypher then ["_schema.cypher"] else []) ++
    if output.dot then ["_schema.dot"] else []

/-- The files that are written for a result, if its shapes have the given text. -/
def OutputSettings.files (output : OutputSettings) (result : Transformation.Result)
    (shapes : String) : List (String × String) :=
  [("_pg_schema.json", (Document.ofSchema result.schema).text), ("_transformed.ttl", ""),
    ("_transformed.ttl", shapes)] ++
    (if output.cypher then
      [("_schema.cypher", Cypher.script (Document.ofSchema result.schema))] else []) ++
    if output.dot then [("_schema.dot", Dot.drawing result.schema)] else []

namespace Disk

variable {d d' : Disk} {folder stem text : String} {output : OutputSettings}
  {result : Transformation.Result}

/-- What is asked for has names of files. -/
theorem isOutputName_of_mem_endings {ending : String} (h : ending ∈ output.endings) :
    IsOutputName ending := by
  have hall : ∀ ending ∈ ["_pg_schema.json", "_transformed.ttl", "_schema.cypher", "_schema.dot"],
      IsOutputName ending := by decide
  refine hall ending ?_
  obtain ⟨home, cypher, dot⟩ := output
  cases cypher <;> cases dot <;> simp [OutputSettings.endings] at h ⊢ <;> tauto

/-- What is written is asked for. -/
theorem mem_endings_of_mem_files {f : String × String} (h : f ∈ output.files result text) :
    f.1 ∈ output.endings := by
  have hendings : (output.files result text).map Prod.fst ⊆ output.endings := by
    obtain ⟨home, cypher, dot⟩ := output
    cases cypher <;> cases dot <;> simp [OutputSettings.files, OutputSettings.endings]
  exact hendings (List.mem_map_of_mem h)

/-- A result with shapes that can be written is written by writing its files. -/
theorem perform_storeResult_eq_ok
    (hshapes : Turtle.writeGraph result.shapes result.statements.space = .ok text) :
    d.perform (storeResult folder stem output result) = (.ok (), d') ↔
      storeAll? folder stem (output.files result text) d = some d' := by
  obtain ⟨home, cypher, dot⟩ := output
  unfold storeResult OutputSettings.files
  simp only [hshapes, perform_bind_eq_ok, perform_storeOr_eq_ok]
  cases cypher <;> cases dot <;>
    simp [storeAll?, Option.bind_eq_some_iff, perform_bind_eq_ok, perform_storeOr_eq_ok,
      perform_pure_eq_ok]

/-- The files of a result are there. -/
structure Holds (d : Disk) (folder stem : String) (output : OutputSettings)
    (result : Transformation.Result) : Prop where
  /-- The document of the schema. -/
  document : d.fetch (Path.within folder (stem ++ "_pg_schema.json")) =
    .text (Document.ofSchema result.schema).text
  /-- The shapes. -/
  shapes : ∃ text, Turtle.writeGraph result.shapes result.statements.space = .ok text ∧
    d.fetch (Path.within folder (stem ++ "_transformed.ttl")) = .text text
  /-- The script, if it was asked for. -/
  script : output.cypher → d.fetch (Path.within folder (stem ++ "_schema.cypher")) =
    .text (Cypher.script (Document.ofSchema result.schema))
  /-- The drawing, if it was asked for. -/
  drawing : output.dot → d.fetch (Path.within folder (stem ++ "_schema.dot")) =
    .text (Dot.drawing result.schema)

/-- **Files of a result.** Behind a result that was written, its files are there. -/
theorem holds_of_storeResult (hstem : '/' ∉ stem.toList)
    (h : d.perform (storeResult folder stem output result) = (.ok (), d')) :
    d'.Holds folder stem output result := by
  cases hwrite : Turtle.writeGraph result.shapes result.statements.space with
  | error fault =>
    simp only [storeResult, hwrite, perform_bind_eq_ok, perform_throw_ne_ok, false_and,
      exists_false, and_false] at h
  | ok text =>
    have hfetch : ∀ other, IsOutputName other →
        d'.fetch (Path.within folder (stem ++ other)) = _ := fun other hother =>
      fetch_of_storeAll? hstem
        (fun f hf => isOutputName_of_mem_endings (mem_endings_of_mem_files hf))
        ((perform_storeResult_eq_ok hwrite).1 h) hother
    refine ⟨?_, ⟨text, hwrite, ?_⟩, fun hcypher => ?_, fun hdot => ?_⟩
    · rw [hfetch _ (by decide), OutputSettings.files]
      cases output.cypher <;> cases output.dot <;> simp
    · rw [hfetch _ (by decide), OutputSettings.files]
      cases output.cypher <;> cases output.dot <;> simp
    · rw [hfetch _ (by decide), OutputSettings.files, hcypher]
      cases output.dot <;> simp
    · rw [hfetch _ (by decide), OutputSettings.files, hdot]
      cases output.cypher <;> simp

end Disk

/-! ## Runs -/

section

variable {d d' : Disk} {folder stem : String}

/-- Behind a run whose result was written, its document is there, and the script of it if it was
asked for. -/
theorem fetch_of_storeResult {output : OutputSettings} {result : Transformation.Result}
    (hstem : '/' ∉ stem.toList)
    (h : d.perform (storeResult folder stem output result) = (.ok (), d')) :
    d'.fetch (Path.within folder (stem ++ "_pg_schema.json")) =
        .text (Document.ofSchema result.schema).text ∧
      (output.cypher → d'.fetch (Path.within folder (stem ++ "_schema.cypher")) =
        .text (Cypher.script (Document.ofSchema result.schema))) :=
  have hholds := Disk.holds_of_storeResult hstem h
  ⟨hholds.document, hholds.script⟩

/-- What comes before the result of a run is written: the folder is made, and the shapes are run. -/
def prepare (file folder : String) (schema : SchemaSettings) :
    Run (StateM Disk) Transformation.Result := do
  if !(← ask (makeFolders folder)) then throw ("Failed to create " ++ folder)
  runFile file schema

/-- A run that goes well writes its result at its end. What comes before does not depend on what is
to be written. -/
private theorem exists_prepare_of_transform {file : String} {output : OutputSettings}
    {schema : SchemaSettings} (h : d.perform (transform file output schema) = (.ok (), d')) :
    ∃ stem result, ∃ between : Disk, Path.stem? file = some stem ∧
      d.perform (prepare file (output.folderFor file) schema) = (.ok result, between) ∧
      between.perform (storeResult (output.folderFor file) stem output result) = (.ok (), d') := by
  unfold transform at h
  split at h
  · exact absurd h (Disk.perform_throw_ne_ok _ _)
  · next stem hstem =>
    obtain ⟨made, d₁, hmade, h⟩ := Disk.perform_bind_eq_ok.1 h
    cases made with
    | false =>
      obtain ⟨_, _, hthrow, -⟩ := Disk.perform_bind_eq_ok.1 h
      exact absurd hthrow (Disk.perform_throw_ne_ok _ _)
    | true =>
      obtain ⟨result, d₂, hrun, h⟩ := Disk.perform_bind_eq_ok.1 h
      exact ⟨stem, result, d₂, hstem, Disk.perform_bind_eq_ok.2 ⟨true, d₁, hmade, hrun⟩, h⟩

/-- The script of a document that is stored is printed, or is written like any text. -/
theorem perform_cypher {file : String} {document : Document}
    (h : d.fetch file = .text document.text) :
    d.perform (cypher file none) =
        (.ok (), { d with printed := d.printed ++ Cypher.script document }) ∧
      ∀ target, d.perform (cypher file (some target)) =
        d.perform (storeOr "Failed to write " target (Cypher.script document)) := by
  have hfetch : d.perform (ask (Host.fetch file)) = (.ok (.text document.text), d) := by
    rw [← h]
    rfl
  constructor
  · rw [cypher, Disk.perform_bind, hfetch]
    simp only [Document.ofText_text]
    rfl
  · intro target
    rw [cypher, Disk.perform_bind, hfetch]
    simp only [Document.ofText_text]

end

/-- **What is stored is read back.** Every document is read back from its text.

So let a file be transformed, with or without a script, and let it be transformed on the same disk
with a script. The command for scripts, run on the document that the former wrote, gives the script
that the latter wrote: it prints it, or it writes it. -/
theorem perform_cypher_of_transform :
    (∀ document : Document, Document.ofText document.text = .ok document) ∧
      ∀ (file : String) (output : OutputSettings) (schema : SchemaSettings)
        (before stored scripted : Disk),
        before.perform (transform file output schema) = (.ok (), stored) →
        before.perform (transform file { output with cypher := true } schema) =
          (.ok (), scripted) →
        ∃ stem script, Path.stem? file = some stem ∧
          scripted.fetch (Path.within (output.folderFor file) (stem ++ "_schema.cypher")) =
            .text script ∧
          stored.perform
              (cypher (Path.within (output.folderFor file) (stem ++ "_pg_schema.json")) none) =
            (.ok (), { stored with printed := stored.printed ++ script }) ∧
          ∀ target, stored.perform
              (cypher (Path.within (output.folderFor file) (stem ++ "_pg_schema.json"))
                (some target)) =
            stored.perform (storeOr "Failed to write " target script) := by
  refine ⟨Document.ofText_text, fun file output schema before stored scripted h hscript => ?_⟩
  obtain ⟨stem, result, between, hstem, hprepare, hstore⟩ := exists_prepare_of_transform h
  obtain ⟨stem', result', between', hstem', hprepare', hstore'⟩ :=
    exists_prepare_of_transform hscript
  -- both runs have the same result
  obtain rfl : stem = stem' := Option.some.inj (hstem.symm.trans hstem')
  have hsame := hprepare.symm.trans hprepare'
  rw [Prod.mk.injEq, Except.ok.injEq] at hsame
  obtain ⟨rfl, rfl⟩ := hsame
  have hslash := slash_not_mem_stem? hstem
  have hdocument := (fetch_of_storeResult hslash hstore).1
  exact ⟨stem, Cypher.script (Document.ofSchema result.schema), hstem,
    (fetch_of_storeResult hslash hstore').2 rfl, perform_cypher hdocument⟩

/-- A disk with a file of shapes: there is a node shape, and it has a target class. -/
def shapesDisk : Disk where
  files := .ofList [("shapes.ttl", "@prefix sh: <http://www.w3.org/ns/shacl#> .\n" ++
    "<urn:PersonShape> a sh:NodeShape; sh:targetClass <urn:Person> .")]

/-- A script is written, and everything else is as it is without options. -/
def scriptOutput : OutputSettings := ⟨none, true, false⟩

/-- A transformation with a script, and its document printed as a script. -/
theorem perform_cypher_of_transform_shapesDisk :
    ∃ stored script,
      shapesDisk.perform (transform "shapes.ttl" scriptOutput ⟨none, {}⟩) =
          (.ok (), stored) ∧
        stored.fetch "shapes_schema.cypher" = .text script ∧
        stored.perform (cypher "shapes_pg_schema.json" none) =
          (.ok (), { stored with printed := stored.printed ++ script }) := by
  have hok : (shapesDisk.perform (transform "shapes.ttl" scriptOutput ⟨none, {}⟩)).1.isOk := by
    decide +kernel
  obtain ⟨stored, h⟩ : ∃ stored,
      shapesDisk.perform (transform "shapes.ttl" scriptOutput ⟨none, {}⟩) =
        (.ok (), stored) := by
    cases h : shapesDisk.perform (transform "shapes.ttl" scriptOutput ⟨none, {}⟩) with
    | mk result stored =>
      cases result with
      | error message =>
        rw [h] at hok
        cases hok
      | ok u => exact ⟨stored, rfl⟩
  obtain ⟨stem, script, hstem, hscript, hprint, -⟩ :=
    perform_cypher_of_transform.2 "shapes.ttl" _ _ shapesDisk stored stored h h
  obtain rfl : stem = "shapes" := Option.some.inj (hstem.symm.trans (by decide +kernel))
  have hpath : Path.within (scriptOutput.folderFor "shapes.ttl")
      ("shapes" ++ "_schema.cypher") = "shapes_schema.cypher" := by decide +kernel
  have hpath' : Path.within (scriptOutput.folderFor "shapes.ttl")
      ("shapes" ++ "_pg_schema.json") = "shapes_pg_schema.json" := by decide +kernel
  rw [hpath] at hscript
  rw [hpath'] at hprint
  exact ⟨stored, script, h, hscript, hprint⟩

end ShapeSchema.CommandLine
