/-!
# Registries

Things with a key each, in the order in which their keys arrived. A thing that arrives under a key
that is already there takes the place of the earlier one, so that no key is there twice. Facts, node
types and edge types are kept like this.

## Main definitions

* `ShapeSchema.Keyed` — the types whose values have a key.
* `ShapeSchema.Registry` — the entries in the order of arrival, with distinct keys.
* `ShapeSchema.Registry.insert`, `ShapeSchema.Registry.find?` — the operations.
* `ShapeSchema.Registry.map` — other values under the same keys.

## Main results

* `ShapeSchema.Registry.find?_insert` — what an insertion does to the lookups.
* `ShapeSchema.Registry.keys_insert` — an insertion keeps the order of the keys.
-/

namespace ShapeSchema

/-- Values that are told apart by a key. -/
class Keyed (α : Type) where
  /-- The key of a value. -/
  key : α → String

/-- Entries in the order in which their keys arrived. -/
structure Registry (α : Type) [Keyed α] where
  /-- The entries, first arrival first. -/
  entries : List α
  /-- No two entries have one key. -/
  nodup : (entries.map Keyed.key).Nodup
  deriving DecidableEq

namespace Registry

variable {α : Type} [Keyed α]

/-- Registries with the same entries are equal. -/
theorem ext_entries {r t : Registry α} (h : r.entries = t.entries) : r = t := by
  cases r; cases t; simp_all

/-- The registry without entries. -/
def empty : Registry α := ⟨[], .nil⟩

instance : EmptyCollection (Registry α) := ⟨empty⟩

instance : Inhabited (Registry α) := ⟨empty⟩

/-! ## Operations -/

/-- A list with `a` in the place of the first entry with its key, or at the end. -/
def place (a : α) : List α → List α
  | [] => [a]
  | b :: rest => if Keyed.key b = Keyed.key a then a :: rest else b :: place a rest

/-- A new key goes to the end, a known one stays where it is. -/
private theorem map_key_place (a : α) (l : List α) :
    (place a l).map Keyed.key =
      if Keyed.key a ∈ l.map Keyed.key then l.map Keyed.key
      else l.map Keyed.key ++ [Keyed.key a] := by
  induction l with
  | nil => simp [place]
  | cons b rest ih =>
    by_cases hb : Keyed.key b = Keyed.key a
    · simp [place, hb]
    · simp only [place, hb, if_false, List.map_cons, ih, List.mem_cons, Ne.symm hb, false_or]
      split <;> simp_all

/-- Keys stay distinct when a value is placed among them. -/
private theorem nodup_place {l : List α} (h : (l.map Keyed.key).Nodup) (a : α) :
    ((place a l).map Keyed.key).Nodup := by
  rw [map_key_place]
  split
  · exact h
  · next ha => exact List.nodup_append.2 ⟨h, by simp, by grind⟩

/-- The registry with `a` in it, in the place of the entry with its key if there is one. -/
def insert (r : Registry α) (a : α) : Registry α := ⟨place a r.entries, nodup_place r.nodup a⟩

/-- The entry with the key. -/
def find? (r : Registry α) (key : String) : Option α := r.entries.find? (Keyed.key · = key)

/-- Whether an entry has the key. -/
def contains (r : Registry α) (key : String) : Bool := (r.find? key).isSome

/-- The number of entries. -/
def size (r : Registry α) : Nat := r.entries.length

/-- The keys in the order of arrival. -/
def keys (r : Registry α) : List String := r.entries.map Keyed.key

/-- The registry that arises from inserting the given values in turn. -/
def ofList (values : List α) : Registry α := values.foldl insert empty

/-- The registry with other values, which keep the keys. -/
def map {β : Type} [Keyed β] (f : α → β) (hf : ∀ a, Keyed.key (f a) = Keyed.key a)
    (r : Registry α) : Registry β :=
  ⟨r.entries.map f, by
    rw [List.map_map, show Keyed.key ∘ f = Keyed.key from funext hf]
    exact r.nodup⟩

/-! ## Laws -/

/-- **Insertion.** The new entry is found under its key and nothing else changes. -/
theorem find?_insert (r : Registry α) (a : α) (key : String) :
    (r.insert a).find? key = if Keyed.key a = key then some a else r.find? key := by
  obtain ⟨entries, -⟩ := r
  show (place a entries).find? (Keyed.key · = key) =
    if Keyed.key a = key then some a else entries.find? (Keyed.key · = key)
  induction entries with
  | nil => by_cases ha : Keyed.key a = key <;> simp [place, ha]
  | cons b rest ih =>
    by_cases hb : Keyed.key b = Keyed.key a <;> grind [place]

/-- No key is there twice. -/
theorem nodup_keys (r : Registry α) : r.keys.Nodup := r.nodup

/-- An insertion keeps the order of the keys and puts a new one to the end. -/
theorem keys_insert (r : Registry α) (a : α) :
    (r.insert a).keys = if Keyed.key a ∈ r.keys then r.keys else r.keys ++ [Keyed.key a] :=
  map_key_place a r.entries

end Registry

end ShapeSchema
