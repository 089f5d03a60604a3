import Mathlib.Data.List.Nodup
import ShapeSchema.Dict

/-!
# Maps and their lookups

A sorted map is determined by what is found in it, so two maps that were filled in different ways
are compared name by name.

## Main results

* `ShapeSchema.Dict.ext_get?` — maps with the same lookups are equal.
* `ShapeSchema.Dict.get?_ofList_eq_some` — what is found in a map of entries with distinct names.
* `ShapeSchema.Dict.ofList_perm` — such a map does not depend on the order of the entries.
* `ShapeSchema.Dict.ofList_entries` — a map is the map of its own entries.
-/

namespace ShapeSchema.Dict

variable {β : Type}

/-! ## Lookups in lists of entries -/

/-- With distinct names, an entry is what is found under its name. -/
theorem lookup_eq_some_iff {l : List (String × β)} (h : (l.map Prod.fst).Nodup) {name : String}
    {value : β} : l.lookup name = some value ↔ (name, value) ∈ l := by
  induction l with
  | nil => simp
  | cons head rest ih =>
    obtain ⟨n, v⟩ := head
    rw [List.map_cons, List.nodup_cons] at h
    by_cases hn : name = n
    · subst hn
      have hrest : (name, value) ∉ rest := fun hmem => h.1 (List.mem_map.2 ⟨_, hmem, rfl⟩)
      simp [hrest, eq_comm]
    · simp [lookup_cons, hn, ih h.2]

/-- Lookups do not depend on the order of entries with distinct names. -/
theorem lookup_perm {l m : List (String × β)} (hp : l.Perm m) (h : (l.map Prod.fst).Nodup)
    (name : String) : l.lookup name = m.lookup name := by
  apply Option.ext
  intro value
  rw [lookup_eq_some_iff h, lookup_eq_some_iff ((hp.map _).nodup_iff.1 h), hp.mem_iff]

/-- So their list may be turned round. -/
theorem lookup_reverse {l : List (String × β)} (h : (l.map Prod.fst).Nodup) (name : String) :
    l.reverse.lookup name = l.lookup name :=
  (lookup_perm l.reverse_perm.symm h name).symm

/-! ## Extensionality -/

/-- Names occur once. -/
theorem nodup_keys (d : Dict β) : d.keys.Nodup := by
  rw [keys, List.Nodup, List.pairwise_map]
  exact d.sorted.imp fun {a b} hlt (heq : a.1 = b.1) => String.lt_irrefl b.1 (heq ▸ hlt)

/-- Just the entries are found. -/
theorem get?_eq_some_iff {d : Dict β} {name : String} {value : β} :
    d.get? name = some value ↔ (name, value) ∈ d.entries :=
  lookup_eq_some_iff d.nodup_keys

/-- **Extensionality.** Two maps in which the same is found are equal. -/
theorem ext_get? {d e : Dict β} (h : ∀ name, d.get? name = e.get? name) : d = e := by
  apply ext_entries
  have hperm : d.entries.Perm e.entries := by
    rw [List.perm_ext_iff_of_nodup (.of_map _ d.nodup_keys) (.of_map _ e.nodup_keys)]
    rintro ⟨name, value⟩
    rw [← get?_eq_some_iff, ← get?_eq_some_iff, h]
  -- both lists are sorted, and a sorted list has only one order
  exact hperm.eq_of_pairwise
    (fun a b _ _ hab hba => absurd (String.lt_trans hab hba) (String.lt_irrefl _))
    d.sorted e.sorted

/-! ## Names -/

/-- Something is found just under the names of the map. -/
theorem mem_keys_iff {d : Dict β} {name : String} : name ∈ d.keys ↔ (d.get? name).isSome := by
  rw [keys, List.mem_map, Option.isSome_iff_exists]
  constructor
  · rintro ⟨⟨_, value⟩, hmem, rfl⟩
    exact ⟨value, get?_eq_some_iff.2 hmem⟩
  · rintro ⟨value, hvalue⟩
    exact ⟨(name, value), get?_eq_some_iff.1 hvalue, rfl⟩

/-- The names after an insertion. -/
theorem mem_keys_insert {d : Dict β} {name other : String} {value : β} :
    other ∈ (d.insert name value).keys ↔ other = name ∨ other ∈ d.keys := by
  rw [mem_keys_iff, mem_keys_iff, get?_insert]
  split
  · next heq => simp [heq]
  · next hne => simp [hne]

/-! ## Maps of given entries -/

/-- Nothing is found in the empty map. -/
@[simp] theorem get?_empty (name : String) : (empty : Dict β).get? name = none := rfl

/-- Of several entries that are inserted in turn, the last one under a name stays. -/
theorem get?_foldl_insert (d : Dict β) (l : List (String × β)) (name : String) :
    (l.foldl (fun d e => d.insert e.1 e.2) d).get? name =
      (l.reverse.lookup name).or (d.get? name) := by
  induction l generalizing d with
  | nil => simp
  | cons head rest ih =>
    obtain ⟨n, v⟩ := head
    rw [List.foldl_cons, ih, List.reverse_cons, List.lookup_append, get?_insert]
    by_cases hn : name = n <;> simp [lookup_cons, hn]

/-- What is found in the map of some entries: the last one under the name. -/
theorem get?_ofList (l : List (String × β)) (name : String) :
    (ofList l).get? name = l.reverse.lookup name := by
  rw [ofList, get?_foldl_insert]
  simp

/-- **Distinct names.** Each of the given entries is found, and nothing else. -/
theorem get?_ofList_eq_some {l : List (String × β)} (h : (l.map Prod.fst).Nodup) {name : String}
    {value : β} : (ofList l).get? name = some value ↔ (name, value) ∈ l := by
  rw [get?_ofList, lookup_reverse h, lookup_eq_some_iff h]

/-- Entries with distinct names are looked up as they are. -/
theorem get?_ofList_of_nodup {l : List (String × β)} (h : (l.map Prod.fst).Nodup) (name : String) :
    (ofList l).get? name = l.lookup name := by
  rw [get?_ofList, lookup_reverse h]

/-- **Order.** Entries with distinct names may come in any order. -/
theorem ofList_perm {l m : List (String × β)} (hp : l.Perm m) (h : (l.map Prod.fst).Nodup) :
    ofList l = ofList m := by
  apply ext_get?
  intro name
  rw [get?_ofList_of_nodup h, get?_ofList_of_nodup ((hp.map _).nodup_iff.1 h),
    lookup_perm hp h]

/-- A map is the map of its own entries. -/
theorem ofList_entries (d : Dict β) : ofList d.entries = d := by
  apply ext_get?
  intro name
  rw [get?_ofList_of_nodup d.nodup_keys]
  rfl

/-! ## Changing all values -/

/-- What is found among changed values. -/
private theorem lookup_map {γ : Type} (f : β → γ) (name : String) (l : List (String × β)) :
    (l.map fun e => (e.1, f e.2)).lookup name = (l.lookup name).map f := by
  induction l with
  | nil => rfl
  | cons head rest ih =>
    obtain ⟨n, v⟩ := head
    by_cases hn : name = n <;> simp [lookup_cons, hn, ih]

/-- What is found in a map of changed values is what was found before, changed. -/
theorem get?_map {γ : Type} (f : β → γ) (d : Dict β) (name : String) :
    (d.map f).get? name = (d.get? name).map f :=
  lookup_map f name d.entries

/-- It does not matter whether a value is changed before or after it is inserted. -/
theorem map_insert {γ : Type} (f : β → γ) (d : Dict β) (name : String) (value : β) :
    (d.insert name value).map f = (d.map f).insert name (f value) := by
  apply ext_get?
  intro other
  rw [get?_map, get?_insert, get?_insert, get?_map]
  split <;> rfl

end ShapeSchema.Dict
