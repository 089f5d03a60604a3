import Mathlib.Data.List.Dedup
import Mathlib.Data.List.Induction
import ShapeSchema.Proofs.Statements
import ShapeSchema.Proofs.Table
import ShapeSchema.Statement.Store

/-!
# Insertions in turn

What is inserted into a registry one after the other can be told from the list of it alone: the keys
stand in the order in which each of them arrived first, and under each key there is the last value
that arrived with it. Stored statements are such a registry. Their index is right after any
insertions, so that every insertion has a result and hands back what it replaces.

Every fact is of one of three kinds, and the facts of each kind are listed in their order.

## Main definitions

* `ShapeSchema.Registry.lastWith` — the last value with a key.
* `ShapeSchema.Statements.Parts` — the facts of some statements, by their kinds.
* `ShapeSchema.StatementStore.Holds` — a store after some insertions.

## Main results

* `ShapeSchema.Registry.keys_ofList`, `ShapeSchema.Registry.entries_ofList` — what a registry holds
  after some insertions, and in which order.
* `ShapeSchema.Statements.parts` — the kinds of facts.
* `ShapeSchema.StatementStore.holds_insertAll` — stored statements after any insertions.
-/

namespace ShapeSchema

/-! ## Registries -/

namespace Registry

variable {α : Type} [Keyed α]

/-- The last value of a list with a key. -/
def lastWith (l : List α) (key : String) : Option α := l.findRev? (Keyed.key · = key)

/-- A value at the end is the last one with its key. -/
private theorem lastWith_append (l : List α) (a : α) (key : String) :
    lastWith (l ++ [a]) key = if Keyed.key a = key then some a else lastWith l key := by
  rw [lastWith, lastWith, List.findRev?_eq_find?_reverse, List.findRev?_eq_find?_reverse,
    List.reverse_append, List.reverse_singleton, List.singleton_append, List.find?_cons]
  by_cases h : Keyed.key a = key <;> simp [h]

/-- A value at the end is inserted last. -/
private theorem ofList_append (l : List α) (a : α) : ofList (l ++ [a]) = (ofList l).insert a :=
  List.foldl_append

/-- **Keys** stand in the order in which each of them arrived first. -/
theorem keys_ofList (l : List α) : (ofList l).keys = (l.map Keyed.key).eraseDups := by
  induction l using List.reverseRecOn with
  | nil => rfl
  | append_singleton l a ih =>
    rw [ofList_append, keys_insert, ih, List.map_append, List.map_singleton,
      List.eraseDups_append]
    generalize l.map Keyed.key = keys
    by_cases h : Keyed.key a ∈ keys <;> simp [List.removeAll, List.eraseDups_cons, h]

/-- Under each key there is the last value with it. -/
private theorem find?_ofList (l : List α) (key : String) :
    (ofList l).find? key = lastWith l key := by
  induction l using List.reverseRecOn with
  | nil => rfl
  | append_singleton l a ih => rw [ofList_append, find?_insert, lastWith_append, ih]

/-- **Values** stand where the first ones with their keys stood, and are the last ones. -/
theorem entries_ofList (l : List α) :
    (ofList l).entries.map some = (l.map Keyed.key).eraseDups.map (lastWith l) := by
  rw [← keys_ofList, keys, List.map_map]
  refine List.map_congr_left fun a ha => ?_
  rw [Function.comp_apply, ← find?_ofList, find?_of_mem ha]

/-- There are as many values as there are keys. -/
private theorem length_entries_ofList (l : List α) :
    (ofList l).entries.length = (l.map Keyed.key).dedup.length := by
  have hperm : (ofList l).keys.Perm (l.map Keyed.key).dedup := by
    rw [List.perm_ext_iff_of_nodup (nodup_keys _) (List.nodup_dedup _)]
    intro key
    rw [mem_keys_ofList, List.mem_dedup]
  rw [← hperm.length_eq, keys, List.length_map]

end Registry

/-! ## Kinds of facts -/

namespace Statements

/-- The facts of some statements, by their kinds: each kind in the order of the facts, no fact in
two kinds, and all of them together. -/
structure Parts (facts : List Fact) (classFacts : List ClassFact)
    (propertyFacts : List PropertyFact) (relationFacts : List RelationFact) : Prop where
  /-- The facts about classes come in order. -/
  classes : (classFacts.map Fact.ofClass).Sublist facts
  /-- The facts about properties come in order. -/
  properties : (propertyFacts.map Fact.ofProperty).Sublist facts
  /-- The facts about relationships come in order. -/
  relations : (relationFacts.map Fact.ofRelation).Sublist facts
  /-- No fact is of two kinds. -/
  disjoint : [classFacts.map Fact.ofClass, propertyFacts.map Fact.ofProperty,
    relationFacts.map Fact.ofRelation].Pairwise List.Disjoint
  /-- Every fact is of one of the kinds, and is listed there as often as it occurs. -/
  perm : (classFacts.map Fact.ofClass ++ (propertyFacts.map Fact.ofProperty ++
    relationFacts.map Fact.ofRelation)).Perm facts

/-- What a kind of facts picks out is a part of the list. -/
private theorem map_filterMap_sublist {α : Type} {kind : Fact → Option α} {fact : α → Fact}
    (hkind : ∀ {f a}, kind f = some a ↔ f = fact a) (facts : List Fact) :
    ((facts.filterMap kind).map fact).Sublist facts := by
  induction facts with
  | nil => exact .refl _
  | cons f facts ih =>
    cases h : kind f with
    | none =>
      rw [List.filterMap_cons_none h]
      exact ih.cons f
    | some a =>
      rw [List.filterMap_cons_some h, List.map_cons, ← hkind.1 h]
      exact ih.cons_cons f

/-- The kinds together have every fact as often as it occurs. -/
private theorem kinds_perm (facts : List Fact) :
    ((facts.filterMap Fact.class?).map Fact.ofClass ++
      ((facts.filterMap Fact.property?).map Fact.ofProperty ++
        (facts.filterMap Fact.relation?).map Fact.ofRelation)).Perm facts := by
  induction facts with
  | nil => exact .refl _
  | cons f facts ih =>
    cases f with
    | ofClass c => exact ih.cons _
    | ofProperty p => exact List.perm_middle.trans (ih.cons _)
    | ofRelation r =>
      refine .trans ?_ (ih.cons _)
      exact (List.perm_middle.append_left _).trans List.perm_middle

/-- **Kinds.** The facts fall into those about classes, properties and relationships. -/
theorem parts (s : Statements) :
    Parts s.toList s.classFacts s.propertyFacts s.relationFacts where
  classes := map_filterMap_sublist Fact.class?_eq_some_iff _
  properties := map_filterMap_sublist Fact.property?_eq_some_iff _
  relations := map_filterMap_sublist Fact.relation?_eq_some_iff _
  disjoint := by simp [List.disjoint_left]
  perm := kinds_perm _

end Statements

/-! ## Stored statements -/

namespace StatementStore

variable {S : StatementStore}

/-- **One insertion** has a result. It hands back the fact that had the identifier, keeps the index
right, and does to the statements what an insertion does. -/
theorem insert_eq (h : S.facts.Indexed) (f : Fact) :
    ∃ S', S.insert f = some (S.plain.find? f.id, S') ∧ S'.facts.Indexed ∧
      S'.plain = S.plain.insert f := by
  obtain ⟨old, facts, hput, hp⟩ := h.put f
  have hold : S.plain.find? f.id = old := hp.find?_eq h
  refine ⟨{ S with facts := facts }, ?_, hp.indexed h, ?_⟩
  · rw [insert, hput, hold]
    rfl
  · show (⟨S.name, S.space, facts.registry⟩ : Statements) = _
    rw [hp.registry_eq h]
    rfl

/-- **Several insertions** have a result. -/
private theorem insertAll_eq (h : S.facts.Indexed) (fs : List Fact) :
    ∃ S', S.insertAll fs = some S' ∧ S'.facts.Indexed ∧
      S'.plain = fs.foldl Statements.insert S.plain := by
  induction fs generalizing S with
  | nil => exact ⟨S, rfl, h, rfl⟩
  | cons f fs ih =>
    obtain ⟨T, hinsert, hT, hplain⟩ := insert_eq h f
    obtain ⟨S', hall, hS', hfold⟩ := ih hT
    refine ⟨S', ?_, hS', ?_⟩
    · rw [insertAll, hinsert]
      exact hall
    · rw [hfold, hplain, List.foldl_cons]

/-- A fact at the end is inserted last. -/
private theorem insertAll_append (S : StatementStore) (fs : List Fact) (f : Fact) :
    S.insertAll (fs ++ [f]) = (S.insertAll fs).bind fun S' => (S'.insert f).map Prod.snd := by
  induction fs generalizing S with
  | nil =>
    show ((S.insert f).bind fun step => some step.2) = (S.insert f).map Prod.snd
    cases S.insert f <;> rfl
  | cons g fs ih =>
    rw [List.cons_append, insertAll, insertAll]
    cases S.insert g with
    | none => rfl
    | some step => exact ih step.2

/-- The index leads to the fact with an identifier. -/
theorem get?_eq (h : S.facts.Indexed) (id : String) : S.get? id = some (S.plain.find? id) := by
  have hfind : S.plain.find? id = S.facts.registry.find? id := rfl
  rw [get?, hfind]
  rcases h.row?_cases id with ⟨hnew, hrow⟩ | ⟨place, f, hf, hid, hrow⟩
  · rw [hrow, Registry.find?_eq_none_iff.2 (h.keys_registry ▸ hnew)]
    rfl
  · rw [hrow, ← hid, Registry.find?_of_mem (h.entries_registry ▸ List.mem_of_getElem? hf)]
    rfl

/-- Insertions change the facts only. -/
private theorem foldl_insert (s : Statements) (fs : List Fact) :
    fs.foldl Statements.insert s = { s with facts := fs.foldl Registry.insert s.facts } := by
  induction fs generalizing s with
  | nil => rfl
  | cons f fs ih => exact ih (s.insert f)

/-- The store after some facts were inserted into an empty one. -/
structure Holds (S : StatementStore) (fs : List Fact) : Prop where
  /-- The facts stand in the order in which each identifier arrived first, and each of them is the
  last one with its identifier. -/
  facts : S.facts.rows.map some = (fs.map Fact.id).eraseDups.map fun id =>
    fs.findRev? (·.id = id)
  /-- There are as many as there are identifiers. -/
  length : S.facts.rows.length = (fs.map Fact.id).dedup.length
  /-- No two of them have one identifier. -/
  nodup : (S.facts.rows.map Fact.id).Nodup
  /-- The fact with an identifier is found. -/
  get : ∀ id, S.get? id = some (S.facts.rows.find? (·.id = id))
  /-- Just the identifiers of the facts are known. -/
  contains : ∀ id, S.contains id = true ↔ id ∈ S.facts.rows.map Fact.id
  /-- The facts fall into kinds. -/
  parts : Statements.Parts S.facts.rows S.plain.classFacts S.plain.propertyFacts
    S.plain.relationFacts

/-- **Stored statements.** Any facts can be inserted in turn into an empty store. Afterwards the
store holds the last fact with each identifier, in the order in which the identifiers arrived first,
and it is the set of statements that the facts make up. A further insertion has a result: it hands
back just the fact that the store held under the identifier, if there was one. -/
theorem holds_insertAll (name space : String) (fs : List Fact) :
    ∃ S, insertAll ⟨name, space, {}⟩ fs = some S ∧ S.Holds fs ∧
      S.plain = Statements.ofList name space fs ∧
      ∀ f, ∃ S', S.insert f = some (S.facts.rows.find? (·.id = f.id), S') ∧
        insertAll ⟨name, space, {}⟩ (fs ++ [f]) = some S' := by
  have hempty : Table.Indexed (α := Fact) {} := Table.indexed_empty
  obtain ⟨S, hall, hS, hfold⟩ := insertAll_eq (S := ⟨name, space, {}⟩) hempty fs
  have hplain : S.plain = Statements.ofList name space fs :=
    hfold.trans (foldl_insert _ fs)
  have hrows : S.facts.rows = (Registry.ofList fs).entries := by
    rw [← hS.entries_registry]
    exact congrArg (·.facts.entries) hplain
  have hfind : ∀ id, S.plain.find? id = S.facts.rows.find? (·.id = id) := hS.find?_registry
  refine ⟨S, hall, ?_, hplain, fun f => ?_⟩
  · exact
      { facts := by
          rw [hrows]
          exact Registry.entries_ofList fs
        length := by
          rw [hrows]
          exact Registry.length_entries_ofList fs
        nodup := hS.nodup
        get := fun id => by rw [get?_eq hS, hfind]
        contains := fun id => hS.contains_iff
        parts := by
          rw [← hS.entries_registry]
          exact Statements.parts S.plain }
  · obtain ⟨S', hinsert, -, -⟩ := insert_eq hS f
    rw [hfind] at hinsert
    exact ⟨S', hinsert, by rw [insertAll_append, hall, Option.bind_some, hinsert, Option.map_some]⟩

/-- A copy takes the place of the property with its identifier, which stands before the class. -/
example :
    let property : Property := ⟨⟨"http://example.org/since"⟩, ⟨"http://example.org/Date"⟩, .any⟩
    let own : Fact := .ofProperty ⟨"Person", { property with predicate := ⟨"knows_since"⟩ }, none⟩
    let copy : Fact := .ofProperty ⟨"Person", property, some ⟨"http://example.org/knows"⟩⟩
    let person : Fact := .ofClass ⟨"Person", ⟨"http://example.org/Person"⟩⟩
    (insertAll ⟨"people", "http://example.org/", {}⟩ [own, person, copy]).map (·.facts.rows) =
      some [copy, person] := by
  decide +kernel

end StatementStore

end ShapeSchema
