/-!
# Sorted maps

Finite maps from names to values, kept in the order of their names. Property constraints, labels
and JSON properties are listed in this order wherever they are written.

## Main definitions

* `ShapeSchema.Dict` — entries with strictly increasing names.
* `ShapeSchema.Dict.insert`, `ShapeSchema.Dict.erase`, `ShapeSchema.Dict.get?` — the operations.
* `ShapeSchema.NameSet` — a map without values: a sorted set of names.

## Main results

* `ShapeSchema.Dict.get?_insert`, `ShapeSchema.Dict.get?_erase` — what each operation does to the
  lookups.
-/

namespace ShapeSchema

/-- A finite map from names to values, in the order of the names. -/
structure Dict (β : Type) where
  /-- The entries, by increasing name. -/
  entries : List (String × β)
  /-- Names strictly increase, so that each occurs once. -/
  sorted : entries.Pairwise fun a b => a.1 < b.1

namespace Dict

variable {β : Type}

/-- Two maps with the same entries are equal. -/
theorem ext_entries {d e : Dict β} (h : d.entries = e.entries) : d = e := by
  cases d; cases e; simp_all

instance [DecidableEq β] : DecidableEq (Dict β) := fun d e =>
  if h : d.entries = e.entries then isTrue (ext_entries h)
  else isFalse fun hde => h (hde ▸ rfl)

/-- The map without entries. -/
def empty : Dict β := ⟨[], .nil⟩

instance : EmptyCollection (Dict β) := ⟨empty⟩

instance : Inhabited (Dict β) := ⟨empty⟩

/-! ## Operations -/

/-- The entries with `value` under `name`; an entry under the name is replaced. -/
def insertEntry (name : String) (value : β) : List (String × β) → List (String × β)
  | [] => [(name, value)]
  | (n, v) :: rest =>
    if name < n then (name, value) :: (n, v) :: rest
    else if name = n then (name, value) :: rest
    else (n, v) :: insertEntry name value rest

/-- The entries of the result come from the new entry and from the old ones. -/
private theorem mem_insertEntry {name : String} {value : β} {entries : List (String × β)}
    {e : String × β} (h : e ∈ insertEntry name value entries) :
    e = (name, value) ∨ e ∈ entries := by
  induction entries with
  | nil => simpa [insertEntry] using h
  | cons head rest ih =>
    obtain ⟨n, v⟩ := head
    unfold insertEntry at h
    split at h
    · simpa using h
    · split at h
      · next heq =>
        rcases List.mem_cons.1 h with h | h
        · exact .inl h
        · exact .inr (List.mem_cons_of_mem _ h)
      · rcases List.mem_cons.1 h with h | h
        · exact .inr (by simp [h])
        · exact (ih h).imp id (List.mem_cons_of_mem _)

/-- Names stay in their order when an entry is put among them. -/
private theorem sorted_insertEntry {name : String} {value : β} {entries : List (String × β)}
    (h : entries.Pairwise fun a b => a.1 < b.1) :
    (insertEntry name value entries).Pairwise fun a b => a.1 < b.1 := by
  induction entries with
  | nil => simp [insertEntry]
  | cons head rest ih =>
    obtain ⟨n, v⟩ := head
    obtain ⟨hhead, hrest⟩ := List.pairwise_cons.1 h
    unfold insertEntry
    split
    · next hlt =>
      refine List.pairwise_cons.2 ⟨fun e he => ?_, h⟩
      rcases List.mem_cons.1 he with rfl | he
      · exact hlt
      · exact String.lt_trans hlt (hhead e he)
    · split
      · next heq => exact List.pairwise_cons.2 ⟨fun e he => heq ▸ hhead e he, hrest⟩
      · next hlt heq =>
        refine List.pairwise_cons.2 ⟨fun e he => ?_, ih hrest⟩
        rcases mem_insertEntry he with rfl | he
        · grind
        · exact hhead e he

/-- The map with `value` under `name`; a value that was there is replaced. -/
def insert (d : Dict β) (name : String) (value : β) : Dict β :=
  ⟨insertEntry name value d.entries, sorted_insertEntry d.sorted⟩

/-- The map without an entry under `name`. -/
def erase (d : Dict β) (name : String) : Dict β :=
  ⟨d.entries.filter fun e => e.1 ≠ name, d.sorted.filter _⟩

/-- The value under `name`. -/
def get? (d : Dict β) (name : String) : Option β :=
  d.entries.lookup name

/-- Whether there is a value under `name`. -/
def contains (d : Dict β) (name : String) : Bool :=
  (d.get? name).isSome

/-- The names, in their order. -/
def keys (d : Dict β) : List String := d.entries.map (·.1)

/-- The values, in the order of their names. -/
def values (d : Dict β) : List β := d.entries.map (·.2)

/-- The map of the given entries; of several under one name the last stays. -/
def ofList (entries : List (String × β)) : Dict β :=
  entries.foldl (fun d e => d.insert e.1 e.2) empty

/-- The map with `f` applied to each value. -/
def map {γ : Type} (f : β → γ) (d : Dict β) : Dict γ :=
  ⟨d.entries.map fun e => (e.1, f e.2), by
    simpa [List.pairwise_map] using d.sorted⟩

/-! ## Lookups -/

/-- The first entry is what is found under its name. -/
theorem lookup_cons (name n : String) (v : β) (rest : List (String × β)) :
    List.lookup name ((n, v) :: rest) = if name = n then some v else rest.lookup name := by
  by_cases h : name = n
  · simp [h]
  · simp [List.lookup_cons, beq_false_of_ne h, h]

/-- What is found after an entry was put among others. -/
private theorem lookup_insertEntry (name : String) (value : β) (entries : List (String × β))
    (other : String) :
    (insertEntry name value entries).lookup other =
      if other = name then some value else entries.lookup other := by
  induction entries with
  | nil => exact lookup_cons other name value []
  | cons head rest ih =>
    obtain ⟨n, v⟩ := head
    unfold insertEntry
    split
    · rw [lookup_cons]
    · split <;> grind [lookup_cons]

/-- What is found after the entries under a name were taken away. -/
private theorem lookup_filter_ne (name other : String) (entries : List (String × β)) :
    (entries.filter fun e => e.1 ≠ name).lookup other =
      if other = name then none else entries.lookup other := by
  induction entries with
  | nil => simp
  | cons head rest ih =>
    obtain ⟨n, v⟩ := head
    by_cases hn : n = name <;> grind [lookup_cons]

/-- **Insertion.** The new value is found under its name and nothing else changes. -/
theorem get?_insert (d : Dict β) (name : String) (value : β) (other : String) :
    (d.insert name value).get? other = if other = name then some value else d.get? other :=
  lookup_insertEntry name value d.entries other

/-- **Removal.** Nothing is found under the name and nothing else changes. -/
theorem get?_erase (d : Dict β) (name other : String) :
    (d.erase name).get? other = if other = name then none else d.get? other :=
  lookup_filter_ne name other d.entries

end Dict

/-- A finite set of names, in their order. -/
abbrev NameSet := Dict Unit

/-- The set with `name` in it. -/
def NameSet.add (s : NameSet) (name : String) : NameSet := Dict.insert s name ()

/-- The set of the given names. -/
def NameSet.ofNames (names : List String) : NameSet := names.foldl NameSet.add Dict.empty

end ShapeSchema
