import ShapeSchema.Statement.OfShapes
import ShapeSchema.Schema.OfStatements
import ShapeSchema.Statement.ToShapes

/-!
# Transformations

A run reads the shapes of a graph into statements, makes a schema of them, and writes them as shapes
again. Each of the three must give something.

## Main definitions

* `ShapeSchema.Transformation.Options`, `ShapeSchema.Transformation.Result` — what goes in and
  comes out.
* `ShapeSchema.Transformation.run` — a run.
* `ShapeSchema.Transformation.notes` — what is reported about it.
-/

namespace ShapeSchema.Transformation

/-- How a run is done. -/
structure Options where
  /-- How shapes are read. -/
  reading : ReadingOptions := {}
  /-- How the schema is made. -/
  schema : SchemaOptions := {}
  deriving DecidableEq

/-- The stages of a run. -/
inductive Stage where
  | extract
  | lower
  | lift
  deriving DecidableEq

/-- The name of a stage. -/
def Stage.name : Stage → String
  | extract => "extract"
  | lower => "lower"
  | lift => "lift"

/-- A stage gave nothing. -/
structure EmptyStage where
  /-- What the input is called. -/
  input : String
  /-- The stage. -/
  stage : Stage
  deriving DecidableEq

namespace EmptyStage

/-- Why a run failed. -/
def cause : String := "the stage produced an empty graph"

/-- What is said about a run that failed. -/
def message (e : EmptyStage) : String :=
  "Transforming " ++ e.input ++ " failed at the " ++ e.stage.name ++ " stage: " ++ cause

end EmptyStage

/-- What a run gives. -/
structure Result where
  /-- The facts that the shapes state. -/
  statements : Statements
  /-- The schema of the facts. -/
  schema : Schema
  /-- The shapes of the facts. -/
  shapes : Rdf.Graph

/-- What a run of a graph gives. -/
def results (options : Options) (g : Rdf.Graph) : Result :=
  let statements := Statements.ofShapes options.reading g
  ⟨statements, .ofStatements options.schema statements, statements.toShapes⟩

/-- The first stage that gave nothing. -/
def Result.emptyStage? (r : Result) : Option Stage :=
  if r.statements.isEmpty then some .extract
  else if r.schema.isEmpty then some .lower
  else if r.shapes.isEmpty then some .lift
  else none

/-- Runs a graph. -/
def run (options : Options) (input : String) (g : Rdf.Graph) : Except EmptyStage Result :=
  let r := results options g
  match r.emptyStage? with
  | some stage => .error ⟨input, stage⟩
  | none => .ok r

/-- What is reported about a run. A stage that gives nothing is the last one. -/
def notes (options : Options) (g : Rdf.Graph) : List Diagnostic :=
  let r := results options g
  Statements.notesOfShapes options.reading g ++ .statementsRead ::
    if r.statements.isEmpty then []
    else
      Schema.notesOfStatements options.schema r.statements ++ .schemaBuilt ::
        if r.schema.isEmpty then [] else r.statements.notesOfToShapes ++ [.shapesBuilt]

end ShapeSchema.Transformation
