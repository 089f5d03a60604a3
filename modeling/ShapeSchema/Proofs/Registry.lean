import Mathlib.Data.List.Dedup
import ShapeSchema.Registry

/-!
# What a registry holds

A registry never has two entries with one key: the structure says so. This is behind every law
below, on what a registry holds after an insertion and what it holds after any number of them.

## Main definitions

* `ShapeSchema.Registry.latest` — a list without the values that later ones replace.

## Main results

* `ShapeSchema.Registry.mem_insert_iff`, `ShapeSchema.Registry.mem_keys_ofList` — what is in a
  registry.
* `ShapeSchema.Registry.mem_ofList_iff` — values that are known by their keys are all kept.
* `ShapeSchema.Registry.entries_ofList_perm` — of the values with one key, the last one is kept.
* `ShapeSchema.Registry.entries_ofList_of_nodup` — values with distinct keys are kept as they are.
-/

namespace ShapeSchema.Registry

/-! ## The last value with each key -/

section Latest

variable {α β κ : Type} [DecidableEq κ]

/-- The values of a list without those that a later one with the same key follows. -/
def latest (key : α → κ) : List α → List α
  | [] => []
  | a :: l => if key a ∈ l.map key then latest key l else a :: latest key l

/-- The keys of what is kept are the keys of the list, each one once. -/
private theorem map_latest (key : α → κ) (l : List α) :
    (latest key l).map key = (l.map key).dedup := by
  induction l with
  | nil => rfl
  | cons a l ih =>
    rw [latest, List.map_cons]
    split
    · next h => rw [ih, List.dedup_cons_of_mem h]
    · next h => rw [List.map_cons, ih, List.dedup_cons_of_notMem h]

/-- Nothing is left out just if the keys are distinct. -/
theorem length_latest_eq_iff {key : α → κ} {l : List α} :
    (latest key l).length = l.length ↔ (l.map key).Nodup := by
  have hlength : (latest key l).length = (l.map key).dedup.length := by
    rw [← map_latest, List.length_map]
  rw [hlength, ← List.dedup_eq_self]
  constructor
  · intro h
    exact (List.dedup_sublist _).eq_of_length (by rw [h, List.length_map])
  · intro h
    rw [h, List.length_map]

/-- The last values of one kind with each key, if that kind has keys of its own and no value of
another kind has one of them. -/
theorem filterMap_latest {κ' : Type} [DecidableEq κ'] {key : α → κ} {key' : β → κ'}
    {part : α → Option β} {l : List α}
    (hkey : ∀ a ∈ l, ∀ b ∈ l, ∀ x ∈ part a, ∀ y ∈ part b, key a = key b ↔ key' x = key' y)
    (hpart : ∀ a ∈ l, ∀ b ∈ l, key a = key b → (part a).isSome = (part b).isSome) :
    (latest key l).filterMap part = latest key' (l.filterMap part) := by
  induction l with
  | nil => rfl
  | cons a l ih =>
    have hrest := ih
      (fun b hb c hc => hkey b (List.mem_cons_of_mem _ hb) c (List.mem_cons_of_mem _ hc))
      (fun b hb c hc => hpart b (List.mem_cons_of_mem _ hb) c (List.mem_cons_of_mem _ hc))
    rw [latest]
    cases ha : part a with
    | none =>
      rw [List.filterMap_cons_none ha, ← hrest]
      split
      · rfl
      · rw [List.filterMap_cons_none ha]
    | some x =>
      have hmem : key a ∈ l.map key ↔ key' x ∈ (l.filterMap part).map key' := by
        have hkeys : ∀ b ∈ l, ∀ y ∈ part b, key b = key a ↔ key' y = key' x := fun b hb y hy =>
          hkey b (List.mem_cons_of_mem _ hb) a List.mem_cons_self y hy x ha
        simp only [List.mem_map, List.mem_filterMap]
        constructor
        · rintro ⟨b, hb, hba⟩
          have hkind := hpart b (List.mem_cons_of_mem _ hb) a List.mem_cons_self hba
          rw [ha, Option.isSome_some] at hkind
          obtain ⟨y, hy⟩ := Option.isSome_iff_exists.1 hkind
          exact ⟨y, ⟨b, hb, hy⟩, (hkeys b hb y hy).1 hba⟩
        · rintro ⟨y, ⟨b, hb, hy⟩, hyx⟩
          exact ⟨b, hb, (hkeys b hb y hy).2 hyx⟩
      rw [List.filterMap_cons_some ha, latest, ← hrest]
      by_cases hlater : key a ∈ l.map key
      · rw [if_pos hlater, if_pos (hmem.1 hlater)]
      · rw [if_neg hlater, if_neg (hmem.not.1 hlater), List.filterMap_cons_some ha]

/-- Only equality of keys matters. -/
theorem latest_map {κ' : Type} [DecidableEq κ'] {key : α → κ} {key' : β → κ'} {f : α → β}
    {l : List α} (h : ∀ a ∈ l, ∀ b ∈ l, key a = key b ↔ key' (f a) = key' (f b)) :
    latest key' (l.map f) = (latest key l).map f := by
  rw [← List.filterMap_eq_map]
  refine (filterMap_latest ?_ fun a _ b _ _ => rfl).symm
  rintro a ha b hb x ⟨⟩ y ⟨⟩
  exact h a ha b hb

end Latest

variable {α : Type} [Keyed α]

/-! ## Insertion -/

/-- A value with a new key goes to the end. -/
theorem place_eq_append {a : α} {l : List α} (h : Keyed.key a ∉ l.map Keyed.key) :
    place a l = l ++ [a] := by
  induction l with
  | nil => rfl
  | cons b rest ih =>
    rw [List.map_cons, List.mem_cons, not_or] at h
    have hne : Keyed.key b ≠ Keyed.key a := fun hb => h.1 hb.symm
    simp only [place, if_neg hne, ih h.2, List.cons_append]

/-- A registry puts an entry with a new key behind the others. -/
theorem entries_insert_of_notMem {r : Registry α} {a : α} (h : Keyed.key a ∉ r.keys) :
    (r.insert a).entries = r.entries ++ [a] :=
  place_eq_append h

/-- A value with a known key takes the place of the one that has it. -/
theorem place_eq_map {a : α} {l : List α} (h : (l.map Keyed.key).Nodup)
    (ha : Keyed.key a ∈ l.map Keyed.key) :
    place a l = l.map fun b => if Keyed.key b = Keyed.key a then a else b := by
  induction l with
  | nil => simp at ha
  | cons c rest ih =>
    rw [List.map_cons, List.nodup_cons] at h
    rw [place, List.map_cons]
    by_cases hc : Keyed.key c = Keyed.key a
    · have hrest : ∀ b ∈ rest, (if Keyed.key b = Keyed.key a then a else b) = b := by
        intro b hb
        refine if_neg fun heq => h.1 ?_
        rw [hc, ← heq]
        exact List.mem_map_of_mem hb
      rw [if_pos hc, if_pos hc, List.map_congr_left hrest, List.map_id']
    · rw [List.map_cons, List.mem_cons] at ha
      rw [if_neg hc, if_neg hc, ih h.2 (ha.resolve_left (Ne.symm hc))]

/-- So it stands where that one stood. -/
theorem place_eq_set {a b : α} {l : List α} {i : Nat} (h : (l.map Keyed.key).Nodup)
    (hb : l[i]? = some b) (hkey : Keyed.key b = Keyed.key a) : place a l = l.set i a := by
  induction l generalizing i with
  | nil => simp at hb
  | cons c rest ih =>
    rw [List.map_cons, List.nodup_cons] at h
    cases i with
    | zero =>
      obtain rfl : c = b := by simpa using hb
      rw [place, if_pos hkey, List.set_cons_zero]
    | succ i =>
      rw [List.getElem?_cons_succ] at hb
      have hne : Keyed.key c ≠ Keyed.key a := by
        intro hc
        exact h.1 (hc ▸ hkey ▸ List.mem_map_of_mem (List.mem_of_getElem? hb))
      rw [place, if_neg hne, ih h.2 hb, List.set_cons_succ]

/-- Values may be changed before or after one is placed among them, if they keep their keys. -/
private theorem place_map {β : Type} [Keyed β] {f : α → β}
    (hf : ∀ a, Keyed.key (f a) = Keyed.key a) (a : α) (l : List α) :
    place (f a) (l.map f) = (place a l).map f := by
  induction l with
  | nil => rfl
  | cons b rest ih =>
    rw [List.map_cons, place, place, hf, hf, ih]
    split <;> rfl

/-- Values may be changed before or after an insertion, if they keep their keys. -/
theorem map_insert {β : Type} [Keyed β] {f : α → β} (hf : ∀ a, Keyed.key (f a) = Keyed.key a)
    (r : Registry α) (a : α) : (r.insert a).map f hf = (r.map f hf).insert (f a) :=
  ext_entries (place_map hf a r.entries).symm

/-- What stands in a list after a value was placed in it. -/
theorem mem_place_iff {a b : α} {l : List α} (h : (l.map Keyed.key).Nodup) :
    b ∈ place a l ↔ b = a ∨ b ∈ l ∧ Keyed.key b ≠ Keyed.key a := by
  induction l with
  | nil => simp [place]
  | cons c rest ih =>
    rw [List.map_cons, List.nodup_cons] at h
    by_cases hc : Keyed.key c = Keyed.key a
    · -- only the head has the key of `a`
      have hrest : b ∈ rest → Keyed.key b ≠ Keyed.key a := by
        intro hb heq
        exact h.1 (hc ▸ heq ▸ List.mem_map_of_mem hb)
      simp only [place, if_pos hc, List.mem_cons]
      constructor
      · rintro (rfl | hb)
        · exact .inl rfl
        · exact .inr ⟨.inr hb, hrest hb⟩
      · rintro (rfl | ⟨rfl | hb, hne⟩)
        · exact .inl rfl
        · exact absurd hc hne
        · exact .inr hb
    · simp only [place, if_neg hc, List.mem_cons, ih h.2]
      constructor
      · rintro (rfl | rfl | ⟨hb, hne⟩)
        · exact .inr ⟨.inl rfl, hc⟩
        · exact .inl rfl
        · exact .inr ⟨.inr hb, hne⟩
      · rintro (rfl | ⟨rfl | hb, hne⟩)
        · exact .inr (.inl rfl)
        · exact .inl rfl
        · exact .inr (.inr ⟨hb, hne⟩)

/-- **What an insertion leaves.** The new entry and all former ones with other keys. -/
theorem mem_insert_iff {r : Registry α} {a b : α} :
    b ∈ (r.insert a).entries ↔ b = a ∨ b ∈ r.entries ∧ Keyed.key b ≠ Keyed.key a :=
  mem_place_iff r.nodup

/-- The keys after an insertion. -/
theorem mem_keys_insert {r : Registry α} {a : α} {k : String} :
    k ∈ (r.insert a).keys ↔ k ∈ r.keys ∨ k = Keyed.key a := by
  rw [keys_insert]
  split
  · next h =>
    constructor
    · exact .inl
    · rintro (hk | rfl)
      · exact hk
      · exact h
  · simp

/-! ## Insertions in turn -/

/-- The keys after some insertions: the former ones and those of the inserted values. -/
theorem mem_keys_foldl {r : Registry α} {l : List α} {k : String} :
    k ∈ (l.foldl insert r).keys ↔ k ∈ r.keys ∨ k ∈ l.map Keyed.key := by
  induction l generalizing r with
  | nil => simp
  | cons a rest ih =>
    rw [List.foldl_cons, ih, mem_keys_insert, List.map_cons, List.mem_cons, or_assoc]

/-- The keys of a registry are those of the values that were inserted. -/
theorem mem_keys_ofList {l : List α} {k : String} :
    k ∈ (ofList l).keys ↔ k ∈ l.map Keyed.key := by
  rw [ofList, mem_keys_foldl]
  simp [keys, empty]

/-- An entry after some insertions was there before or is one of the inserted values. -/
theorem mem_of_mem_foldl {r : Registry α} {l : List α} {a : α}
    (ha : a ∈ (l.foldl insert r).entries) : a ∈ r.entries ∨ a ∈ l := by
  induction l generalizing r with
  | nil => exact .inl ha
  | cons b rest ih =>
    rcases ih ha with ha | ha
    · rcases mem_insert_iff.1 ha with rfl | ⟨ha, -⟩
      · exact .inr List.mem_cons_self
      · exact .inl ha
    · exact .inr (List.mem_cons_of_mem _ ha)

/-- The entries of a registry are among the values that were inserted. -/
theorem mem_of_mem_ofList {l : List α} {a : α} (ha : a ∈ (ofList l).entries) : a ∈ l := by
  rcases mem_of_mem_foldl (r := empty) ha with ha | ha
  · exact absurd ha List.not_mem_nil
  · exact ha

/-- **Values that are known by their keys** are all kept. -/
theorem mem_ofList_iff {l : List α} (h : ∀ a ∈ l, ∀ b ∈ l, Keyed.key a = Keyed.key b → a = b)
    {a : α} : a ∈ (ofList l).entries ↔ a ∈ l := by
  constructor
  · exact mem_of_mem_ofList
  · intro ha
    have hkey : Keyed.key a ∈ (ofList l).keys := mem_keys_ofList.2 (List.mem_map_of_mem ha)
    obtain ⟨b, hb, hba⟩ := List.mem_map.1 hkey
    rw [← h b (mem_of_mem_ofList hb) a ha hba]
    exact hb

/-- The entries of a registry are distinct, since their keys are. -/
theorem nodup_entries (r : Registry α) : r.entries.Nodup := List.Nodup.of_map _ r.nodup

/-- An insertion puts the new entry to the former ones with other keys. -/
theorem entries_insert_perm (r : Registry α) (a : α) :
    (r.insert a).entries.Perm (a :: r.entries.filter fun b => Keyed.key b ≠ Keyed.key a) := by
  have hnew : (a :: r.entries.filter fun b => Keyed.key b ≠ Keyed.key a).Nodup := by
    refine List.nodup_cons.2 ⟨fun ha => ?_, r.nodup_entries.filter _⟩
    simpa using List.of_mem_filter ha
  rw [List.perm_ext_iff_of_nodup (nodup_entries _) hnew]
  intro b
  rw [mem_insert_iff, List.mem_cons, List.mem_filter, decide_eq_true_eq]

/-- Insertions in turn put the last value with each key to the former entries with other keys. -/
private theorem entries_foldl_perm (r : Registry α) (l : List α) :
    (l.foldl insert r).entries.Perm
      (latest Keyed.key l ++ r.entries.filter fun b => Keyed.key b ∉ l.map Keyed.key) := by
  induction l generalizing r with
  | nil => simp [latest]
  | cons a l ih =>
    have hrest : ((r.insert a).entries.filter fun b => Keyed.key b ∉ l.map Keyed.key).Perm
        ((a :: r.entries.filter fun b => Keyed.key b ≠ Keyed.key a).filter fun b =>
          Keyed.key b ∉ l.map Keyed.key) := (entries_insert_perm r a).filter _
    have hkeys : ((r.entries.filter fun b => Keyed.key b ≠ Keyed.key a).filter fun b =>
          Keyed.key b ∉ l.map Keyed.key) =
        r.entries.filter fun b => Keyed.key b ∉ (a :: l).map Keyed.key := by
      rw [List.filter_filter]
      refine List.filter_congr fun b _ => ?_
      simp [Bool.and_comm]
    refine (ih (r.insert a)).trans ((hrest.append_left _).trans ?_)
    rw [latest]
    by_cases ha : Keyed.key a ∈ l.map Keyed.key
    · rw [if_pos ha, List.filter_cons_of_neg (by simpa using ha), hkeys]
    · rw [if_neg ha, List.filter_cons_of_pos (by simpa using ha), hkeys]
      exact List.perm_middle

/-- **Later values win.** A registry holds the last value with each key, and nothing else. -/
theorem entries_ofList_perm (l : List α) : (ofList l).entries.Perm (latest Keyed.key l) := by
  have h := entries_foldl_perm empty l
  rw [empty, List.filter_nil, List.append_nil] at h
  exact h

/-- Values whose keys are new and distinct go to the end in their order. -/
private theorem entries_foldl_of_nodup {r : Registry α} {l : List α}
    (h : (r.keys ++ l.map Keyed.key).Nodup) :
    (l.foldl insert r).entries = r.entries ++ l := by
  induction l generalizing r with
  | nil => simp
  | cons a l ih =>
    have hnew : Keyed.key a ∉ r.keys := fun ha =>
      (List.nodup_append.1 h).2.2 _ ha _ (by simp) rfl
    have hentries : (r.insert a).entries = r.entries ++ [a] := entries_insert_of_notMem hnew
    have hkeys : (r.insert a).keys = r.keys ++ [Keyed.key a] := by
      rw [keys_insert, if_neg hnew]
    rw [List.foldl_cons, ih (by rw [hkeys]; simpa using h), hentries, List.append_assoc]
    rfl

/-- **Distinct keys.** Values with distinct keys are kept as they are. -/
theorem entries_ofList_of_nodup {l : List α} (h : (l.map Keyed.key).Nodup) :
    (ofList l).entries = l :=
  entries_foldl_of_nodup (r := empty) (by simpa [keys, empty] using h)

/-! ## Lookups -/

/-- Entries are told apart by their keys. -/
theorem eq_of_key_eq {r : Registry α} {a b : α} (ha : a ∈ r.entries) (hb : b ∈ r.entries)
    (hab : Keyed.key a = Keyed.key b) : a = b :=
  List.inj_on_of_nodup_map r.nodup ha hb hab

/-- What is found among changed values is what was found before, changed. -/
theorem find?_map {β : Type} [Keyed β] {f : α → β} (hf : ∀ a, Keyed.key (f a) = Keyed.key a)
    (r : Registry α) (k : String) : (r.map f hf).find? k = (r.find? k).map f := by
  rw [find?, map, List.find?_map]
  simp only [Function.comp_def, hf, find?]

/-- Nothing is found under the keys that no entry has, and under no other ones. -/
theorem find?_eq_none_iff {r : Registry α} {k : String} : r.find? k = none ↔ k ∉ r.keys := by
  simp [find?, keys, List.find?_eq_none]

/-- A registry knows the keys of its entries. -/
theorem contains_iff {r : Registry α} {k : String} : r.contains k = true ↔ k ∈ r.keys := by
  rw [contains, Option.isSome_iff_ne_none, ne_eq, find?_eq_none_iff, not_not]

/-- What is found under a key is an entry with this key. -/
theorem mem_of_find? {r : Registry α} {k : String} {a : α} (h : r.find? k = some a) :
    a ∈ r.entries ∧ Keyed.key a = k :=
  ⟨List.mem_of_find?_eq_some h, by simpa using List.find?_some h⟩

/-- Every entry is found under its key. -/
theorem find?_of_mem {r : Registry α} {a : α} (ha : a ∈ r.entries) :
    r.find? (Keyed.key a) = some a := by
  have hkey : Keyed.key a ∈ r.keys := List.mem_map_of_mem ha
  cases hf : r.find? (Keyed.key a) with
  | none => exact absurd hkey (find?_eq_none_iff.1 hf)
  | some b =>
    obtain ⟨hb, hkeys⟩ := mem_of_find? hf
    rw [eq_of_key_eq hb ha hkeys]

end ShapeSchema.Registry
