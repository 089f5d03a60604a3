import ShapeSchema.Naming
import ShapeSchema.Dict
import ShapeSchema.Registry
import ShapeSchema.Table
import ShapeSchema.Cardinality
import ShapeSchema.Diagnostic
import ShapeSchema.Text.Blank
import ShapeSchema.Iri.Resolve
import ShapeSchema.Rdf.Outline
import ShapeSchema.Rdf.Vocabulary
import ShapeSchema.Turtle.Token
import ShapeSchema.Turtle.Reader
import ShapeSchema.Turtle.Writer
import ShapeSchema.Json.Decode
import ShapeSchema.Json.Printer
import ShapeSchema.Statement.OfShapes
import ShapeSchema.Statement.Store
import ShapeSchema.Schema.ToStatements
import ShapeSchema.Schema.Validation
import ShapeSchema.Schema.Store
import ShapeSchema.Transformation
import ShapeSchema.Document.Json
import ShapeSchema.Cypher
import ShapeSchema.Cypher.Reader
import ShapeSchema.Dot
import ShapeSchema.Dot.Reader
import ShapeSchema.CommandLine.Disk
import ShapeSchema.Main
import ShapeSchema.Proofs.Splitting
import ShapeSchema.Proofs.Registry
import ShapeSchema.Proofs.Dict
import ShapeSchema.Proofs.Count
import ShapeSchema.Proofs.Graph
import ShapeSchema.Proofs.Statements
import ShapeSchema.Proofs.Stated
import ShapeSchema.Proofs.Reading
import ShapeSchema.Proofs.Shapes
import ShapeSchema.Proofs.RoundTrip
import ShapeSchema.Proofs.Constraints
import ShapeSchema.Proofs.Lowering
import ShapeSchema.Proofs.Idempotence
import ShapeSchema.Proofs.Raising
import ShapeSchema.Proofs.Identifiers
import ShapeSchema.Proofs.Edges
import ShapeSchema.Proofs.Order
import ShapeSchema.Proofs.Merging
import ShapeSchema.Proofs.Copies
import ShapeSchema.Proofs.Conformance
import ShapeSchema.Proofs.Table
import ShapeSchema.Proofs.Store
import ShapeSchema.Proofs.Closure
import ShapeSchema.Proofs.Failure
import ShapeSchema.Proofs.Script
import ShapeSchema.Proofs.Tokens
import ShapeSchema.Proofs.Printing
import ShapeSchema.Proofs.Trees
import ShapeSchema.Proofs.Documents
import ShapeSchema.Proofs.Disk
import ShapeSchema.Proofs.Commands
import ShapeSchema.Proofs.Precedence
import ShapeSchema.Proofs.Outputs
import ShapeSchema.Proofs.Arrival
import ShapeSchema.Proofs.Forest
import ShapeSchema.Proofs.Outline
import ShapeSchema.Proofs.ShapeNames
import ShapeSchema.Proofs.Insertions
import ShapeSchema.Proofs.Violations
import ShapeSchema.Proofs.ScriptReading
import ShapeSchema.Proofs.ScriptLines
import ShapeSchema.Proofs.Keys
import ShapeSchema.Proofs.Legality
import ShapeSchema.Proofs.Deduplication
import ShapeSchema.Proofs.DrawingParts
import ShapeSchema.Proofs.Drawing
import ShapeSchema.Proofs.CamelCase
import ShapeSchema.Proofs.Recovery
import ShapeSchema.Proofs.StableTypes
import ShapeSchema.Proofs.Escaping
import ShapeSchema.Proofs.Namespaces
import ShapeSchema.Proofs.Bounds
