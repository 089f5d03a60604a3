import ShapeSchema.Dict
import ShapeSchema.Registry

/-!
# Tables

A table lists its rows in the order in which their keys arrived and has an index that tells where
the row with a key stands. A row is found through the index only; if that leads behind the rows,
there is no result.

## Main definitions

* `ShapeSchema.Table` — rows and an index.
* `ShapeSchema.Table.row?` — the row that the index leads to.
* `ShapeSchema.Table.put` — a row replaces the one with its key, or goes to the end.
* `ShapeSchema.Table.registry` — the rows without the index.
-/

namespace ShapeSchema

/-- Rows in the order in which their keys arrived, with an index. -/
structure Table (α : Type) where
  /-- The rows, first arrival first. -/
  rows : List α := []
  /-- The places of the rows by their keys. -/
  index : Dict Nat := {}

namespace Table

variable {α : Type} [Keyed α]

/-- The keys in the order of arrival. -/
def keys (t : Table α) : List String := t.rows.map Keyed.key

/-- The table with a row behind the others. -/
def push (t : Table α) (a : α) : Table α :=
  ⟨t.rows ++ [a], t.index.insert (Keyed.key a) t.rows.length⟩

/-- The table with a row in the given place. -/
def set (t : Table α) (place : Nat) (a : α) : Table α := ⟨t.rows.set place a, t.index⟩

/-- The row that the index leads to for a key, with its place, if the index knows the key. There is
no result if it leads behind the rows. -/
def row? (t : Table α) (key : String) : Option (Option (Nat × α)) :=
  match t.index.get? key with
  | none => some none
  | some place => t.rows[place]?.map fun a => some (place, a)

/-- The table with `a` in the place of the row with its key, which is handed back, or with `a` at
the end. -/
def put (t : Table α) (a : α) : Option (Option α × Table α) :=
  (t.row? (Keyed.key a)).map fun
    | none => (none, t.push a)
    | some (place, old) => (some old, t.set place a)

/-- The table in which the row with the key of `a` is changed, where `a` counts as this row if there
is none. The row as it was before comes with it. -/
def changeOrPush (t : Table α) (a : α) (f : α → α) : Option (α × Table α) :=
  (t.row? (Keyed.key a)).map fun
    | none => (a, (t.push a).set t.rows.length (f a))
    | some (place, old) => (old, t.set place (f old))

/-- The table in which the row with a key is changed, with this row as it was before, if there is
one. -/
def change (t : Table α) (key : String) (f : α → α) : Option (Option α × Table α) :=
  (t.row? key).map fun
    | none => (none, t)
    | some (place, old) => (some old, t.set place (f old))

/-- The rows as a registry. Rows with distinct keys are all kept. -/
def registry (t : Table α) : Registry α := Registry.ofList t.rows

end Table

end ShapeSchema
