import ShapeSchema.Proofs.Commands

/-!
# All or nothing

A transformation first makes the folder that it writes to, reads the shapes and runs them. None of
this touches a file. Then it writes its files one after the other. As long as the disk takes them
in, only one thing can go wrong from there on: the namespace of the statements becomes a prefix of
the shapes, and so it has to be a valid IRI. That is looked at when the document was written already
and the file of the shapes was made, so a transformation with any other namespace leaves both
behind. With a valid namespace a transformation that fails has changed no file, and one that goes
well has written all that was asked for.

## Main definitions

* `ShapeSchema.CommandLine.Disk.Takes` — there is room for a file in a folder.
* `ShapeSchema.CommandLine.Disk.Accepts` — a disk takes in the files that are asked for.

## Main results

* `ShapeSchema.CommandLine.Disk.Takes.store` — writing one file leaves room for the others.
* `ShapeSchema.Turtle.exists_writeGraph_iff` — when shapes can be written.
* `ShapeSchema.CommandLine.Disk.exists_perform_storeResult`,
  `ShapeSchema.CommandLine.Disk.exists_perform_storeResult_error` — how writing a result ends.
* `ShapeSchema.CommandLine.transform_all_or_nothing` — a transformation that fails changes no file.
* `ShapeSchema.CommandLine.exists_perform_transform_error` — shapes that cannot be written leave
  files behind.
-/

namespace ShapeSchema

/-! ## Shapes as text -/

/-- **Prefixes.** Shapes can be written just if the namespace is empty or a valid IRI. -/
theorem Turtle.exists_writeGraph_iff {g : Rdf.Graph} {space : String} :
    (∃ text, Turtle.writeGraph g space = .ok text) ↔ space = "" ∨ Iri.IsValid ⟨space⟩ := by
  have hspaces : (∃ spaces, Turtle.spacesFor space = .ok spaces) ↔
      space = "" ∨ Iri.IsValid ⟨space⟩ := by
    rw [Turtle.spacesFor, Iri.IsValid]
    by_cases hempty : space = ""
    · subst hempty
      exact ⟨fun _ => .inl rfl, fun _ => ⟨_, rfl⟩⟩
    · have hfalse : space.isEmpty = false := by simpa using hempty
      simp only [hfalse, hempty, false_or]
      cases Iri.check ⟨space⟩ with
      | error fault =>
        constructor
        · rintro ⟨_, h⟩
          cases h
        · rintro ⟨⟩
      | ok u => exact ⟨fun _ => rfl, fun _ => ⟨_, rfl⟩⟩
  rw [← hspaces, Turtle.writeGraph]
  cases Turtle.spacesFor space with
  | error fault =>
    constructor
    · rintro ⟨_, h⟩
      cases h
    · rintro ⟨_, ⟨⟩⟩
  | ok spaces =>
    refine ⟨fun _ => ⟨spaces, rfl⟩, fun _ => ?_⟩
    cases hg : g.isEmpty with
    | true => exact ⟨"", rfl⟩
    | false => exact ⟨_, rfl⟩

namespace CommandLine

/-! ## Room for files -/

namespace Disk

variable {d d' : Disk} {folder name other content : String}

/-- A file with the name can be written in the folder. -/
def Takes (d : Disk) (folder name : String) : Prop :=
  (d.store? (Path.within folder name) "").isSome

instance (d : Disk) (folder name : String) : Decidable (d.Takes folder name) :=
  inferInstanceAs (Decidable (_ = true))

/-- **Writing in a folder.** A file is written if there is a way to the folder, the folder is not
behind the root, and no folder has the name of the file. -/
private theorem exists_store?_within (folder : String) : ∃ parts, ∀ (d : Disk) (content : String)
    {name : String}, IsOutputName name → d.store? (Path.within folder name) content =
      if pathLimit < (Path.within folder name).utf8ByteSize then none
      else (d.walk (Place.start folder) parts).bind fun home =>
        if (d.isFolder home ∧ name.utf8ByteSize ≤ nameLimit) ∧
            d.isFolder (home.file name) = false ∧ home.base ≠ .root then
          some { d with files := d.files.insert (home.file name).path content }
        else none := by
  obtain ⟨parts, hparts⟩ := exists_locate?_within folder
  refine ⟨parts, fun d content name hname => ?_⟩
  rw [store?, hparts d hname]
  split_ifs
  · rfl
  · cases d.walk (Place.start folder) parts with
    | none => rfl
    | some home =>
      have hdevice := file_not_mem_devices home hname
      simp only [emptyDevices, List.mem_cons, List.not_mem_nil, or_false, not_or] at hdevice
      obtain ⟨hprint, hnull, -⟩ := hdevice
      have hbase : (home.file name).base = home.base := rfl
      by_cases hfolder : d.isFolder home = true ∧ name.utf8ByteSize ≤ nameLimit
      · rw [Option.bind_some, Option.bind_some, if_pos hfolder]
        by_cases hplace : d.isFolder (home.file name) = true <;>
          by_cases hroot : home.base = .root <;>
            simp [hfolder, hplace, hroot, hprint, hnull, hbase]
      · simp [hfolder]

/-- **Room.** Writing a file of a folder that takes it goes well, and the folder takes what it took
before. -/
theorem Takes.store (h : d.Takes folder name) (hname : IsOutputName name) (content : String) :
    ∃ d', d.store? (Path.within folder name) content = some d' ∧
      ∀ other, IsOutputName other → d.Takes folder other → d'.Takes folder other := by
  obtain ⟨parts, hparts⟩ := exists_store?_within folder
  rw [Takes, hparts d "" hname] at h
  rw [hparts d content hname]
  split_ifs at h ⊢ with hlimit
  · cases h
  · cases hwalk : d.walk (Place.start folder) parts with
    | none => simp [hwalk] at h
    | some home =>
      rw [hwalk, Option.bind_some] at h
      rw [Option.bind_some]
      split_ifs at h ⊢ with hhome
      · refine ⟨_, rfl, fun other hother htakes => ?_⟩
        rw [Takes, hparts _ "" hother] at htakes ⊢
        split_ifs at htakes ⊢
        · exact htakes
        · -- the way to the folder and the folders in it are what they were
          rw [hwalk, Option.bind_some] at htakes
          rw [walk_insert hwalk, Option.bind_some, isFolder_insert hhome.1.1,
            isFolder_insert_file d home hname.slash]
          split_ifs at htakes with hroom
          · rw [if_pos ⟨⟨rfl, hroom.1.2⟩, hroom.2⟩]
            rfl
          · cases htakes
      · cases h

/-! ## Steps that change no file -/

/-- A folder that can be made changes no file. -/
private theorem files_of_makeFolder? {path : String} (h : d.makeFolder? path = some d') :
    d'.files = d.files := by
  unfold makeFolder? at h
  split_ifs at h
  · cases h
  · obtain ⟨place, -, h⟩ := Option.bind_eq_some_iff.1 h
    dsimp only at h
    split_ifs at h
    · rw [← Option.some.inj h]
    · rw [← Option.some.inj h]

/-- Making one folder changes no file. -/
private theorem files_makeFolder (d : Disk) (path : String) :
    ((Host.makeFolder path : StateM Disk Bool).run d).2.files = d.files := by
  have hrun : ((Host.makeFolder path : StateM Disk Bool).run d).2 =
      (d.makeFolder? path).getD d := by
    show ((keepDisk (·.makeFolder? path)).run d).2 = _
    cases h : d.makeFolder? path with
    | none => simp [keepDisk, h]; rfl
    | some e => simp [keepDisk, h]; rfl
  rw [hrun]
  cases h : d.makeFolder? path with
  | none => rfl
  | some e => exact files_of_makeFolder? h

/-- Making a folder and those on the way to it changes no file.

**Proof sketch.** Induction on the number of steps: each makes one folder at most. -/
private theorem files_makeFoldersWithin (fuel : Nat) (d : Disk) (path : String) :
    ((makeFoldersWithin fuel path : StateM Disk Bool).run d).2.files = d.files := by
  induction fuel generalizing d path with
  | zero => rfl
  | succ fuel ih =>
    unfold makeFoldersWithin
    split
    · rfl
    · have hmade := files_makeFolder d path
      rw [StateT.run_bind]
      cases h : (Host.makeFolder path : StateM Disk Bool).run d with
      | mk made between =>
        rw [h] at hmade
        cases made with
        | true => exact hmade
        | false =>
          have hup := ih between (Path.parent path)
          show ((makeFoldersWithin fuel (Path.parent path) >>= fun up =>
            if up then Host.makeFolder path else pure false : StateM Disk Bool).run between).2.files
              = d.files
          rw [StateT.run_bind]
          cases h' : (makeFoldersWithin fuel (Path.parent path) : StateM Disk Bool).run between with
          | mk up above =>
            rw [h'] at hup
            cases up with
            | true => exact (files_makeFolder above path).trans (hup.trans hmade)
            | false => exact hup.trans hmade

/-- The disk when the folder at a path was made, and whether it is there now. -/
def afterFolders (d : Disk) (path : String) : Bool × Disk :=
  (makeFolders path : StateM Disk Bool).run d

/-- Making the folder at a path changes no file. -/
theorem files_afterFolders (d : Disk) (path : String) :
    (d.afterFolders path).2.files = d.files :=
  files_makeFoldersWithin _ d path

/-- Reading and running shapes changes nothing. -/
private theorem perform_runFile (d : Disk) (file : String) (schema : SchemaSettings) :
    (d.perform (runFile file schema)).2 = d := by
  have hload : (d.perform (loadShapes file schema.base)).2 = d := by
    have hfetch : (Host.fetch file : StateM Disk Fetched).run d = (d.fetch file, d) := rfl
    rw [loadShapes, perform_bind, perform_ask, hfetch]
    cases d.fetch file with
    | missing => rfl
    | unreadable => rfl
    | text content =>
      dsimp only
      split <;> rfl
  rw [runFile, perform_bind]
  cases h : d.perform (loadShapes file schema.base) with
  | mk outcome between =>
    rw [h] at hload
    cases outcome with
    | error message => exact hload
    | ok shapes =>
      dsimp only
      split <;> exact hload

/-- What comes before the files are written changes none of them: it makes the folder. -/
theorem perform_prepare (d : Disk) (file folder : String) (schema : SchemaSettings) :
    (d.perform (prepare file folder schema)).2 = (d.afterFolders folder).2 := by
  rw [prepare, perform_bind, perform_ask]
  show ((d.afterFolders folder).2.perform (do
    if !(d.afterFolders folder).1 then throw ("Failed to create " ++ folder)
    runFile file schema)).2 = _
  cases (d.afterFolders folder).1 with
  | false => rfl
  | true => exact perform_runFile _ file schema

/-- A transformation writes its files when everything else went well. -/
theorem perform_transform {file stem : String} (hstem : Path.stem? file = some stem) (d : Disk)
    (output : OutputSettings) (schema : SchemaSettings) :
    d.perform (transform file output schema) =
      match d.perform (prepare file (output.folderFor file) schema) with
      | (.ok result, between) =>
        between.perform (storeResult (output.folderFor file) stem output result)
      | (.error message, between) => (.error message, between) := by
  have htransform : transform (m := StateM Disk) file output schema =
      prepare file (output.folderFor file) schema >>=
        storeResult (output.folderFor file) stem output := by
    unfold transform prepare
    rw [hstem, bind_assoc]
    refine congrArg (ask (makeFolders (output.folderFor file)) >>= ·) (funext fun made => ?_)
    cases made <;> rfl
  rw [htransform, perform_bind]
  cases d.perform (prepare file (output.folderFor file) schema) with
  | mk outcome between => cases outcome <;> rfl

/-! ## Writing results -/

section

variable {stem : String} {output : OutputSettings} {result : Transformation.Result}

/-- **Room for all.** Files that the folder takes can all be written.

**Proof sketch.** Induction on the files: behind each of them the folder takes the others still. -/
private theorem exists_storeAll? {files : List (String × String)} (hstem : '/' ∉ stem.toList)
    (h : ∀ file ∈ files, IsOutputName file.1 ∧ d.Takes folder (stem ++ file.1)) :
    ∃ d', storeAll? folder stem files d = some d' := by
  induction files generalizing d with
  | nil => exact ⟨d, rfl⟩
  | cons file files ih =>
    obtain ⟨ending, text⟩ := file
    obtain ⟨⟨hending, htakes⟩, hfiles⟩ := List.forall_mem_cons.1 h
    obtain ⟨between, hstore, hkeep⟩ := htakes.store (hending.append hstem) text
    obtain ⟨d', hd'⟩ := ih (d := between) fun other hother =>
      ⟨(hfiles other hother).1,
        hkeep _ ((hfiles other hother).1.append hstem) (hfiles other hother).2⟩
    exact ⟨d', by rw [storeAll?, hstore, Option.bind_some, hd']⟩

/-- The folder takes all files that are asked for, once it was made. -/
def Accepts (d : Disk) (file : String) (output : OutputSettings) : Prop :=
  ∀ stem, Path.stem? file = some stem → ∀ ending ∈ output.endings,
    (d.afterFolders (output.folderFor file)).2.Takes (output.folderFor file) (stem ++ ending)

/-- **Writing a result.** In a folder that takes its files, a result with shapes that can be written
is written, and then all of its files are there. -/
theorem exists_perform_storeResult (hstem : '/' ∉ stem.toList)
    (hspace : result.statements.space = "" ∨ Iri.IsValid ⟨result.statements.space⟩)
    (htakes : ∀ ending ∈ output.endings, d.Takes folder (stem ++ ending)) :
    ∃ d', d.perform (storeResult folder stem output result) = (.ok (), d') ∧
      d'.Holds folder stem output result := by
  obtain ⟨text, hshapes⟩ := Turtle.exists_writeGraph_iff (g := result.shapes).2 hspace
  obtain ⟨d', hstore⟩ : ∃ d', storeAll? folder stem (output.files result text) d = some d' :=
    exists_storeAll? hstem fun f hf =>
      ⟨isOutputName_of_mem_endings (mem_endings_of_mem_files hf),
        htakes _ (mem_endings_of_mem_files hf)⟩
  have hperform := (perform_storeResult_eq_ok hshapes).2 hstore
  exact ⟨d', hperform, holds_of_storeResult hstem hperform⟩

/-- A result whose shapes cannot be written is given up behind its document, and then the file for
the shapes is empty. -/
theorem exists_perform_storeResult_error {fault : Iri.Fault} (hstem : '/' ∉ stem.toList)
    (hwrite : Turtle.writeGraph result.shapes result.statements.space = .error fault)
    (htakes : ∀ ending ∈ output.endings, d.Takes folder (stem ++ ending)) :
    ∃ d', d.perform (storeResult folder stem output result) = (.error fault.message, d') ∧
      d'.fetch (Path.within folder (stem ++ "_pg_schema.json")) =
        .text (Document.ofSchema result.schema).text ∧
      d'.fetch (Path.within folder (stem ++ "_transformed.ttl")) = .text "" := by
  have hfiles : ∀ f ∈ [("_pg_schema.json", (Document.ofSchema result.schema).text),
      ("_transformed.ttl", "")], IsOutputName f.1 ∧ d.Takes folder (stem ++ f.1) := by
    have hending : ∀ ending ∈ ["_pg_schema.json", "_transformed.ttl"], ending ∈ output.endings :=
      fun ending h => List.mem_append_left _ (List.mem_append_left _ h)
    intro f hf
    have hf' := hending f.1 (List.mem_map_of_mem (f := Prod.fst) hf)
    exact ⟨isOutputName_of_mem_endings hf', htakes _ hf'⟩
  obtain ⟨d', hstore⟩ := exists_storeAll? hstem hfiles
  have hfetch : ∀ other, IsOutputName other → d'.fetch (Path.within folder (stem ++ other)) = _ :=
    fun other hother => fetch_of_storeAll? hstem (fun f hf => (hfiles f hf).1) hstore hother
  obtain ⟨d₁, h₁, hstore⟩ := Option.bind_eq_some_iff.1 hstore
  obtain ⟨d₂, h₂, hstore⟩ := Option.bind_eq_some_iff.1 hstore
  obtain rfl : d₂ = d' := Option.some.inj hstore
  refine ⟨d₂, ?_, (hfetch "_pg_schema.json" (by decide)).trans (by simp),
    (hfetch "_transformed.ttl" (by decide)).trans (by simp)⟩
  rw [storeResult, perform_bind, perform_storeOr_eq_ok (u := ()) |>.2 h₁]
  dsimp only
  rw [perform_bind, perform_storeOr_eq_ok (u := ()) |>.2 h₂, hwrite]
  rfl

end

end Disk

/-! ## Transformations -/

/-- **All or nothing.** Let a disk take the files that are asked for, and let the namespace of the
statements be empty or a valid IRI. A transformation that fails has then changed no file, and one
that goes well has written all files that were asked for.

**Proof sketch.** What comes before the files are written makes folders at most, and with this
namespace writing the files does not fail. -/
theorem transform_all_or_nothing {d : Disk} {file : String} {output : OutputSettings}
    {schema : SchemaSettings} (haccepts : d.Accepts file output)
    (hspace : ∀ result, (d.perform (prepare file (output.folderFor file) schema)).1 = .ok result →
      result.statements.space = "" ∨ Iri.IsValid ⟨result.statements.space⟩) :
    (∀ message d', d.perform (transform file output schema) = (.error message, d') →
      d'.files = d.files) ∧
    ∀ d', d.perform (transform file output schema) = (.ok (), d') →
      ∃ stem result, Path.stem? file = some stem ∧
        (d.perform (prepare file (output.folderFor file) schema)).1 = .ok result ∧
        d'.Holds (output.folderFor file) stem output result := by
  cases hstem : Path.stem? file with
  | none =>
    have hrun : d.perform (transform file output schema) =
        (.error (file ++ " has no usable file name"), d) := by
      rw [transform, hstem]
      rfl
    rw [hrun]
    exact ⟨by rintro _ _ ⟨⟩; rfl, nofun⟩
  | some stem =>
    rw [Disk.perform_transform hstem]
    have hfiles := Disk.perform_prepare d file (output.folderFor file) schema
    cases hprepare : d.perform (prepare file (output.folderFor file) schema) with
    | mk outcome between =>
      rw [hprepare] at hfiles hspace
      cases outcome with
      | error message =>
        refine ⟨?_, nofun⟩
        rintro _ _ ⟨⟩
        exact (congrArg Disk.files hfiles).trans (Disk.files_afterFolders _ _)
      | ok result =>
        obtain ⟨d', hstore, hholds⟩ := Disk.exists_perform_storeResult (d := between)
          (slash_not_mem_stem? hstem) (hspace result rfl) fun ending hending =>
            (show between = _ from hfiles) ▸ haccepts stem hstem ending hending
        dsimp only
        rw [hstore]
        refine ⟨nofun, ?_⟩
        rintro _ ⟨⟩
        exact ⟨stem, result, rfl, rfl, hholds⟩

/-- Shapes in a namespace that is an IRI, with a script. -/
theorem transform_all_or_nothing_shapesDisk :
    shapesDisk.Accepts "shapes.ttl" scriptOutput ∧
      ∃ stored result,
        shapesDisk.perform (transform "shapes.ttl" scriptOutput ⟨none, {}⟩) = (.ok (), stored) ∧
          stored.Holds (scriptOutput.folderFor "shapes.ttl") "shapes" scriptOutput result := by
  have haccepts : shapesDisk.Accepts "shapes.ttl" scriptOutput := by
    intro stem hstem
    obtain rfl : stem = "shapes" := Option.some.inj (hstem.symm.trans (by decide +kernel))
    decide +kernel
  have hspace : ∀ result, (shapesDisk.perform (prepare "shapes.ttl"
      (scriptOutput.folderFor "shapes.ttl") ⟨none, {}⟩)).1 = .ok result →
      result.statements.space = "" ∨ Iri.IsValid ⟨result.statements.space⟩ := by
    intro result h
    have hresult : ((shapesDisk.perform (prepare "shapes.ttl"
        (scriptOutput.folderFor "shapes.ttl") ⟨none, {}⟩)).1.toOption.map (·.statements.space)) =
        some "http://schema.org/" := by decide +kernel
    rw [h] at hresult
    obtain hresult : result.statements.space = "http://schema.org/" := Option.some.inj hresult
    rw [hresult]
    decide +kernel
  obtain ⟨herror, hok⟩ := transform_all_or_nothing haccepts hspace
  have hgood : (shapesDisk.perform (transform "shapes.ttl" scriptOutput ⟨none, {}⟩)).1.isOk := by
    decide +kernel
  cases hrun : shapesDisk.perform (transform "shapes.ttl" scriptOutput ⟨none, {}⟩) with
  | mk outcome stored =>
    cases outcome with
    | error message =>
      rw [hrun] at hgood
      cases hgood
    | ok u =>
      obtain ⟨stem, result, hstem, -, hholds⟩ := hok stored hrun
      obtain rfl : stem = "shapes" := Option.some.inj (hstem.symm.trans (by decide +kernel))
      exact ⟨haccepts, stored, result, rfl, hholds⟩

/-- **Half done.** Let a disk take the files that are asked for, and let everything go well before
they are written. If the shapes cannot be written then, the transformation fails behind the document
and an empty file for the shapes. -/
theorem exists_perform_transform_error {d : Disk} {file stem : String} {output : OutputSettings}
    {schema : SchemaSettings} {result : Transformation.Result} {fault : Iri.Fault}
    (haccepts : d.Accepts file output) (hstem : Path.stem? file = some stem)
    (hprepare : (d.perform (prepare file (output.folderFor file) schema)).1 = .ok result)
    (hwrite : Turtle.writeGraph result.shapes result.statements.space = .error fault) :
    ∃ left, d.perform (transform file output schema) = (.error fault.message, left) ∧
      left.fetch (Path.within (output.folderFor file) (stem ++ "_pg_schema.json")) =
        .text (Document.ofSchema result.schema).text ∧
      left.fetch (Path.within (output.folderFor file) (stem ++ "_transformed.ttl")) = .text "" := by
  have htakes := haccepts stem hstem
  rw [← Disk.perform_prepare d file (output.folderFor file) schema] at htakes
  obtain ⟨left, hstore, hleft⟩ :=
    Disk.exists_perform_storeResult_error (slash_not_mem_stem? hstem) hwrite htakes
  refine ⟨left, ?_, hleft⟩
  rw [Disk.perform_transform hstem, ← hstore]
  cases hrun : d.perform (prepare file (output.folderFor file) schema) with
  | mk outcome between =>
    rw [hrun] at hprepare
    obtain rfl : outcome = .ok result := hprepare
    rfl

/-- With a namespace that is no IRI, a transformation fails behind the document and an empty file
for the shapes. Neither was there before. -/
theorem transform_half_done :
    shapesDisk.Accepts "shapes.ttl" scriptOutput ∧
      (shapesDisk.files.get? "shapes_pg_schema.json" = none ∧
        shapesDisk.files.get? "shapes_transformed.ttl" = none) ∧
      ∃ message left, shapesDisk.perform (transform "shapes.ttl" scriptOutput
          ⟨none, { reading := { space := some "no iri" } }⟩) = (.error message, left) ∧
        message = "Invalid IRI code point ' '" ∧
        (left.files.get? "shapes_pg_schema.json").isSome ∧
        left.files.get? "shapes_transformed.ttl" = some "" := by
  have hstem : Path.stem? "shapes.ttl" = some "shapes" := by decide +kernel
  have haccepts : shapesDisk.Accepts "shapes.ttl" scriptOutput := by
    intro stem h
    obtain rfl : stem = "shapes" := Option.some.inj (h.symm.trans hstem)
    decide +kernel
  have hfault : ((shapesDisk.perform (prepare "shapes.ttl" (scriptOutput.folderFor "shapes.ttl")
      ⟨none, { reading := { space := some "no iri" } }⟩)).1.toOption.map fun result =>
        (Turtle.writeGraph result.shapes result.statements.space).mapError Iri.Fault.message) =
      some (.error "Invalid IRI code point ' '") := by decide +kernel
  have hleft : ((shapesDisk.perform (transform "shapes.ttl" scriptOutput
        ⟨none, { reading := { space := some "no iri" } }⟩)).2.files.get?
          "shapes_pg_schema.json").isSome ∧
      (shapesDisk.perform (transform "shapes.ttl" scriptOutput
        ⟨none, { reading := { space := some "no iri" } }⟩)).2.files.get?
          "shapes_transformed.ttl" = some "" := by decide +kernel
  refine ⟨haccepts, by decide +kernel, ?_⟩
  cases hprepare : (shapesDisk.perform (prepare "shapes.ttl" (scriptOutput.folderFor "shapes.ttl")
      ⟨none, { reading := { space := some "no iri" } }⟩)).1 with
  | error message =>
    rw [hprepare] at hfault
    cases hfault
  | ok result =>
    rw [hprepare] at hfault
    have hresult : (Turtle.writeGraph result.shapes result.statements.space).mapError
        Iri.Fault.message = .error "Invalid IRI code point ' '" := Option.some.inj hfault
    cases hwrite : Turtle.writeGraph result.shapes result.statements.space with
    | ok text =>
      rw [hwrite] at hresult
      cases hresult
    | error fault =>
      rw [hwrite] at hresult
      obtain ⟨left, hrun, -⟩ := exists_perform_transform_error haccepts hstem hprepare hwrite
      rw [hrun] at hleft
      exact ⟨fault.message, left, hrun, Except.error.inj hresult, hleft⟩

end CommandLine

end ShapeSchema
