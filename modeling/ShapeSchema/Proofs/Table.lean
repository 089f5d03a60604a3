import ShapeSchema.Proofs.Dict
import ShapeSchema.Proofs.Registry
import ShapeSchema.Table

/-!
# Tables stay indexed

The keys of a table are distinct, and its index has just the place of each key. Whatever is put into
a table or changed in it, this stays so; hence no operation fails because the index leads behind the
rows, and a table behaves as the registry of its rows, which are all kept there.

## Main definitions

* `ShapeSchema.Table.Indexed` — the index is right.
* `ShapeSchema.Table.Puts` — a row goes to the end, or in the place of another one.

## Main results

* `ShapeSchema.Table.Indexed.put`, `ShapeSchema.Table.Indexed.changeOrPush`,
  `ShapeSchema.Table.Indexed.change` — what each operation does.
* `ShapeSchema.Table.Puts.indexed` — the index stays right.
* `ShapeSchema.Table.Puts.registry_eq`, `ShapeSchema.Table.Puts.find?_eq` — tables and registries.
-/

namespace ShapeSchema

namespace Table

variable {α : Type} [Keyed α] {t t' : Table α} {a : α} {old : Option α}

/-- Keys are distinct, and the index has just the place of each key. -/
structure Indexed (t : Table α) : Prop where
  /-- No key occurs twice. -/
  nodup : t.keys.Nodup
  /-- The index leads to the place of each key and knows no other keys. -/
  index : ∀ key place, t.index.get? key = some place ↔ t.keys[place]? = some key

/-- A table after a row was put into it: the row is at the end if its key is new, and otherwise it
stands where the one with its key stood. The other rows stay where they are. -/
inductive Puts (t : Table α) (a : α) : Option α → Table α → Prop where
  | push (h : Keyed.key a ∉ t.keys) : Puts t a none (t.push a)
  | set {place : Nat} {b : α} (h : t.rows[place]? = some b) (hkey : Keyed.key b = Keyed.key a) :
      Puts t a (some b) (t.set place a)

/-- The table without rows is indexed. -/
theorem indexed_empty : ({} : Table α).Indexed where
  nodup := List.nodup_nil
  index := by
    intro key place
    show none = some place ↔ [][place]? = some key
    simp

/-- A pushed row has the last key. -/
theorem keys_push (t : Table α) (a : α) : (t.push a).keys = t.keys ++ [Keyed.key a] := by
  rw [keys, push, List.map_append]
  rfl

/-- Behind the old keys there is the new one and nothing else. -/
theorem keys_push_eq_some_iff (t : Table α) (a : α) {place : Nat} {key : String} :
    (t.push a).keys[place]? = some key ↔
      (Keyed.key a = key ∧ place = t.rows.length) ∨ t.keys[place]? = some key := by
  have hlength : t.rows.length = t.keys.length := by rw [keys, List.length_map]
  rw [keys_push, hlength, List.getElem?_append]
  split
  · next hlt =>
    have hne : place ≠ t.keys.length := by omega
    simp [hne]
  · next hge =>
    have hnone : t.keys[place]? = none := List.getElem?_eq_none (by omega)
    have hzero : place - t.keys.length = 0 ↔ place = t.keys.length := by omega
    rw [hnone, List.getElem?_singleton]
    simp only [hzero]
    split
    · next hplace => simp [hplace]
    · next hplace => simp [hplace]

/-- A row with the same key changes no key. -/
theorem keys_set {place : Nat} {b : α} (h : t.rows[place]? = some b)
    (hkey : Keyed.key b = Keyed.key a) : (t.set place a).keys = t.keys := by
  apply List.ext_getElem?
  intro i
  rw [keys, keys, set, List.map_set, List.getElem?_set]
  split
  · next hi =>
    subst hi
    rw [List.getElem?_map, h, List.length_map, if_pos (List.getElem?_eq_some_iff.1 h).1]
    exact congrArg some hkey.symm
  · rfl

namespace Indexed

/-- The index knows the keys of the table. -/
theorem contains_iff (h : t.Indexed) {key : String} :
    t.index.contains key = true ↔ key ∈ t.keys := by
  rw [Dict.contains, Option.isSome_iff_exists, List.mem_iff_getElem?]
  exact exists_congr (h.index key)

/-- All rows of an indexed table are kept in its registry. -/
theorem entries_registry (h : t.Indexed) : t.registry.entries = t.rows :=
  Registry.entries_ofList_of_nodup h.nodup

/-- So the keys are those of the table. -/
theorem keys_registry (h : t.Indexed) : t.registry.keys = t.keys := by
  rw [Registry.keys, h.entries_registry, keys]

/-- What the registry finds is the first row with the key. -/
theorem find?_registry (h : t.Indexed) (key : String) :
    t.registry.find? key = t.rows.find? (Keyed.key · = key) := by
  rw [Registry.find?, h.entries_registry]

/-- A row is found if its key is there, and nothing goes wrong if it is not. -/
theorem row?_cases (h : t.Indexed) (key : String) :
    (key ∉ t.keys ∧ t.row? key = some none) ∨
      ∃ place a, t.rows[place]? = some a ∧ Keyed.key a = key ∧
        t.row? key = some (some (place, a)) := by
  cases hplace : t.index.get? key with
  | none =>
    refine .inl ⟨?_, by rw [row?, hplace]⟩
    rw [← h.contains_iff, Dict.contains, hplace]
    exact Bool.false_ne_true
  | some place =>
    have hkey := (h.index key place).1 hplace
    rw [keys, List.getElem?_map, Option.map_eq_some_iff] at hkey
    obtain ⟨a, ha, hakey⟩ := hkey
    refine .inr ⟨place, a, ha, hakey, ?_⟩
    rw [row?, hplace]
    show t.rows[place]?.map _ = _
    rw [ha]
    rfl

/-- A row is put in. -/
theorem put (h : t.Indexed) (a : α) : ∃ old t', t.put a = some (old, t') ∧ t.Puts a old t' := by
  rw [Table.put]
  rcases h.row?_cases (Keyed.key a) with ⟨hnew, hrow⟩ | ⟨place, b, hb, hkey, hrow⟩
  · exact ⟨none, _, by rw [hrow]; rfl, .push hnew⟩
  · exact ⟨some b, _, by rw [hrow]; rfl, .set hb hkey⟩

/-- A row is changed, and a missing one is put in first. -/
theorem changeOrPush (h : t.Indexed) (a : α) {f : α → α}
    (hf : ∀ b, Keyed.key (f b) = Keyed.key b) :
    ∃ old t', t.changeOrPush a f = some (old.getD a, t') ∧ (∀ b ∈ old, Keyed.key b = Keyed.key a) ∧
      t.Puts (f (old.getD a)) old t' := by
  rw [Table.changeOrPush]
  rcases h.row?_cases (Keyed.key a) with ⟨hnew, hrow⟩ | ⟨place, b, hb, hkey, hrow⟩
  · have hpush : (t.push a).set t.rows.length (f a) = t.push (f a) := by
      rw [set, push, push, hf]
      simp
    refine ⟨none, t.push (f a), ?_, by simp, .push (by rw [Option.getD_none, hf]; exact hnew)⟩
    rw [hrow, ← hpush]
    rfl
  · refine ⟨some b, _, by rw [hrow]; rfl, ?_, .set hb (hf b).symm⟩
    rintro c ⟨⟩
    exact hkey

/-- A row is changed, if it is there. -/
theorem change (h : t.Indexed) (key : String) {f : α → α}
    (hf : ∀ b, Keyed.key (f b) = Keyed.key b) :
    (key ∉ t.keys ∧ t.change key f = some (none, t)) ∨
      ∃ b t', t.change key f = some (some b, t') ∧ Keyed.key b = key ∧
        t.Puts (f b) (some b) t' := by
  rw [Table.change]
  rcases h.row?_cases key with ⟨hnew, hrow⟩ | ⟨place, b, hb, hkey, hrow⟩
  · exact .inl ⟨hnew, by rw [hrow]; rfl⟩
  · exact .inr ⟨b, _, by rw [hrow]; rfl, hkey, .set hb (hf b).symm⟩

end Indexed

namespace Puts

/-- The table stays indexed. -/
theorem indexed (hp : t.Puts a old t') (h : t.Indexed) : t'.Indexed := by
  cases hp with
  | push hnew =>
    constructor
    · rw [keys_push]
      exact List.nodup_append.2 ⟨h.nodup, by simp, by grind⟩
    · intro key place
      rw [keys_push_eq_some_iff, Table.push, Dict.get?_insert]
      split
      · next hkey =>
        subst hkey
        have hother : t.keys[place]? ≠ some (Keyed.key a) := fun hsome =>
          hnew (List.mem_of_getElem? hsome)
        simp [hother, eq_comm]
      · next hkey => simp [h.index, Ne.symm hkey]
  | set hb hkey =>
    constructor
    · rw [keys_set hb hkey]
      exact h.nodup
    · rw [keys_set hb hkey]
      exact h.index

/-- No key is lost. -/
theorem mem_keys (hp : t.Puts a old t') {key : String} (h : key ∈ t.keys) : key ∈ t'.keys := by
  cases hp with
  | push _ =>
    rw [keys_push]
    exact List.mem_append_left _ h
  | set hb hkey =>
    rw [keys_set hb hkey]
    exact h

/-- Every row was there before or was put in. -/
theorem of_mem (hp : t.Puts a old t') {b : α} (hb : b ∈ t'.rows) : b ∈ t.rows ∨ b = a := by
  cases hp with
  | push _ => simpa [Table.push] using hb
  | set _ _ => exact List.mem_or_eq_of_mem_set hb

/-- The row is put in as into a registry. -/
theorem registry_eq (hp : t.Puts a old t') (h : t.Indexed) :
    t'.registry = t.registry.insert a := by
  refine Registry.ext_entries ?_
  show t'.registry.entries = Registry.place a t.registry.entries
  rw [h.entries_registry, (hp.indexed h).entries_registry]
  cases hp with
  | push hnew => exact (Registry.place_eq_append hnew).symm
  | set hb hkey => exact (Registry.place_eq_set h.nodup hb hkey).symm

/-- What was there before is what the registry finds. -/
theorem find?_eq (hp : t.Puts a old t') (h : t.Indexed) :
    t.registry.find? (Keyed.key a) = old := by
  cases hp with
  | push hnew => rwa [Registry.find?_eq_none_iff, h.keys_registry]
  | set hb hkey =>
    rw [← hkey]
    exact Registry.find?_of_mem (h.entries_registry ▸ List.mem_of_getElem? hb)

end Puts

end Table

end ShapeSchema
