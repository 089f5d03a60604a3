import ShapeSchema.Statement.Basic
import ShapeSchema.Table

/-!
# Statements as they are stored

Statements are stored as a table of facts: the facts in the order in which their identifiers
arrived, and an index of the identifiers. A fact is found through the index only. An operation has
no result if the index leads behind the facts.

## Main definitions

* `ShapeSchema.StatementStore` — statements with their table.
* `ShapeSchema.StatementStore.insert`, `ShapeSchema.StatementStore.insertAll` — one insertion, and
  several in turn.
* `ShapeSchema.StatementStore.get?`, `ShapeSchema.StatementStore.contains` — what the index says.
* `ShapeSchema.StatementStore.plain` — the statements that are stored.
-/

namespace ShapeSchema

/-- Statements as they are stored. -/
structure StatementStore where
  /-- What the statements are called. -/
  name : String
  /-- The namespace that names become IRIs in. -/
  space : String
  /-- The facts. -/
  facts : Table Fact := {}

namespace StatementStore

/-- The store with a fact, and the fact that had its identifier before. -/
def insert (S : StatementStore) (f : Fact) : Option (Option Fact × StatementStore) :=
  (S.facts.put f).map fun (old, facts) => (old, { S with facts := facts })

/-- The store with several facts that are inserted in turn. -/
def insertAll (S : StatementStore) : List Fact → Option StatementStore
  | [] => some S
  | f :: fs => (S.insert f).bind fun (_, S') => S'.insertAll fs

/-- The fact that the index leads to for an identifier, if the index knows the identifier. -/
def get? (S : StatementStore) (id : String) : Option (Option Fact) :=
  (S.facts.row? id).map (Option.map Prod.snd)

/-- Whether the index knows an identifier. -/
def contains (S : StatementStore) (id : String) : Bool := S.facts.index.contains id

/-- The statements without their index. -/
def plain (S : StatementStore) : Statements := ⟨S.name, S.space, S.facts.registry⟩

end StatementStore

end ShapeSchema
