import ShapeSchema.Proofs.Stated

/-!
# Reading shapes exactly

The statements of a graph hold the facts that the graph states, each of them once, and it does not
matter in which order the triples are listed. This needs that no order can make a difference: no
property that is read once has two values, and no two facts share an identifier, for of those only
the last one met would stay.

Two things hold of every graph: the statements have distinct identifiers, and they are closed.

## Main definitions

* `ShapeSchema.newFacts` — the facts that are still to be added to known ones.

## Main results

* `ShapeSchema.Statements.toList_ofShapes` — copies stand behind all other facts.
* `ShapeSchema.Statements.closed_ofShapes` — facts speak of subjects that stand for classes.
* `ShapeSchema.Statements.mem_content_ofShapes_iff` — the facts that are no copies.
* `ShapeSchema.Statements.ofShapes_stated` — all facts, in every order of reading.
-/

namespace ShapeSchema

open Rdf (Graph Subject SingleValued Term Triple)

/-! ## Adding facts with new identifiers -/

/-- The facts of a list whose identifiers are neither known nor met before. -/
def newFacts (known : List String) : List Fact → List Fact
  | [] => []
  | f :: fs => if f.id ∈ known then newFacts known fs else f :: newFacts (known ++ [f.id]) fs

/-- A new fact is one of the given facts, and its identifier was not known. -/
theorem of_mem_newFacts {known : List String} {fs : List Fact} {f : Fact}
    (h : f ∈ newFacts known fs) : f ∈ fs ∧ f.id ∉ known := by
  induction fs generalizing known with
  | nil => simp [newFacts] at h
  | cons g fs ih =>
    unfold newFacts at h
    split at h
    · exact ⟨List.mem_cons_of_mem _ (ih h).1, (ih h).2⟩
    · next hg =>
      rcases List.mem_cons.1 h with rfl | h
      · exact ⟨List.mem_cons_self, hg⟩
      · obtain ⟨hmem, hid⟩ := ih h
        exact ⟨List.mem_cons_of_mem _ hmem, fun hf => hid (List.mem_append_left _ hf)⟩

/-- Afterwards, the identifier of every fact of the list is known. -/
theorem id_mem_of_mem (known : List String) {fs : List Fact} {f : Fact} (h : f ∈ fs) :
    f.id ∈ known ∨ ∃ f' ∈ newFacts known fs, f'.id = f.id := by
  induction fs generalizing known with
  | nil => simp at h
  | cons g fs ih =>
    unfold newFacts
    split
    · next hg =>
      rcases List.mem_cons.1 h with rfl | h
      · exact .inl hg
      · exact ih known h
    · rcases List.mem_cons.1 h with rfl | h
      · exact .inr ⟨f, List.mem_cons_self, rfl⟩
      · rcases ih (known ++ [g.id]) h with hf | ⟨f', hf', hid⟩
        · rcases List.mem_append.1 hf with hf | hf
          · exact .inl hf
          · exact .inr ⟨g, List.mem_cons_self, (List.mem_singleton.1 hf).symm⟩
        · exact .inr ⟨f', List.mem_cons_of_mem _ hf', hid⟩

namespace Statements

/-- A fact with a new identifier goes to the end, another one is dropped. -/
theorem toList_insertNew (s : Statements) (f : Fact) :
    (s.insertNew f).toList = if f.id ∈ s.facts.keys then s.toList else s.toList ++ [f] := by
  unfold insertNew
  by_cases h : f.id ∈ s.facts.keys
  · rw [if_pos h, if_pos (Registry.contains_iff.2 h)]
  · rw [if_neg h, if_neg (Registry.contains_iff.not.2 h)]
    exact Registry.entries_insert_of_notMem h

/-- The keys of statements are the identifiers of their facts. -/
theorem keys_eq_map (s : Statements) : s.facts.keys = s.toList.map Fact.id := rfl

/-- Facts that give way to known ones go to the end, as far as they are new. -/
private theorem toList_foldl_insertNew (s : Statements) (fs : List Fact) :
    (fs.foldl insertNew s).toList = s.toList ++ newFacts s.facts.keys fs := by
  induction fs generalizing s with
  | nil => simp [newFacts]
  | cons f fs ih =>
    have hstep := toList_insertNew s f
    rw [List.foldl_cons, ih, newFacts]
    split at hstep
    · next hf => rw [if_pos hf, hstep, keys_eq_map (s.insertNew f), hstep, ← keys_eq_map]
    · next hf =>
      rw [if_neg hf, hstep, keys_eq_map (s.insertNew f), hstep, List.map_append, ← keys_eq_map,
        List.append_assoc]
      rfl

/-! ## Facts of every graph -/

variable {options : ReadingOptions} {g : Graph}

/-- The statements of a graph without copies. -/
def own (options : ReadingOptions) (g : Graph) : Statements :=
  ofNodeShapes options g (NodeShape.ofGraph g)

/-- The copies that are asked for in a graph. -/
def copies (options : ReadingOptions) (g : Graph) : List Fact :=
  copiesOfShapes options g (NodeShape.ofGraph g)

/-- **Copies** stand behind all other facts, as far as their identifiers are new. -/
theorem toList_ofShapes (options : ReadingOptions) (g : Graph) :
    (ofShapes options g).toList =
      (own options g).toList ++ newFacts (own options g).facts.keys (copies options g) :=
  toList_foldl_insertNew _ _

/-- The namespace does not depend on whether copies are asked for. -/
theorem space_ofShapes (options : ReadingOptions) (g : Graph) :
    (ofShapes options g).space = spaceOf options (NodeShape.ofGraph g) := by
  have hown : (own options g).space = spaceOf options (NodeShape.ofGraph g) := rfl
  refine List.foldlRecOn (motive := fun s => s.space = spaceOf options (NodeShape.ofGraph g))
    _ insertNew hown fun s hs f _ => ?_
  unfold insertNew
  split <;> exact hs

/-- The facts that are no copies are met at node shapes. -/
theorem mem_allFacts_of_mem_own {f : Fact} (h : f ∈ (own options g).toList) :
    f ∈ NodeShape.allFacts g :=
  Registry.mem_of_mem_ofList h

/-- Of the facts that are met, one with each identifier stays. -/
theorem exists_mem_own_of_mem (options : ReadingOptions) {f : Fact} (h : f ∈ NodeShape.allFacts g) :
    ∃ f' ∈ (own options g).toList, f'.id = f.id := by
  have hkey : f.id ∈ (own options g).facts.keys :=
    Registry.mem_keys_ofList.2 (List.mem_map.2 ⟨f, h, rfl⟩)
  exact List.mem_map.1 hkey

/-- What is met at a property shape is about the subject of its node shape, and the object of a
relationship is named after its class. -/
theorem mem_facts_iff {n : NodeShape} {f : Fact} :
    f ∈ n.facts g ↔ ∃ value ∈ g.objects n.node Vocabulary.property,
      ∃ said, PropertyShape.ofTerm g value = .ok said ∧ f = said.fact n.subject := by
  simp only [NodeShape.facts, List.mem_filterMap, Option.map_eq_some_iff, toOption_eq_some_iff]
  constructor
  · rintro ⟨value, hvalue, said, hsaid, rfl⟩
    exact ⟨value, hvalue, said, hsaid, rfl⟩
  · rintro ⟨value, hvalue, said, hsaid, rfl⟩
    exact ⟨value, hvalue, said, hsaid, rfl⟩

/-- No fact of a shape is a copy. -/
theorem isCopy_of_mem_allFacts {f : Fact} (h : f ∈ NodeShape.allFacts g) : f.isCopy = false := by
  rcases List.mem_append.1 h with h | h
  · obtain ⟨n, -, rfl⟩ := List.mem_map.1 h
    rfl
  · obtain ⟨n, -, h⟩ := List.mem_flatMap.1 h
    obtain ⟨value, -, said, -, rfl⟩ := mem_facts_iff.1 h
    cases said <;> rfl

/-- Relationships are facts of node shapes. -/
theorem mem_facts_of_mem_allFacts {f : RelationFact} (h : .ofRelation f ∈ NodeShape.allFacts g) :
    .ofRelation f ∈ (NodeShape.ofGraph g).flatMap (·.facts g) := by
  rcases List.mem_append.1 h with h | h
  · obtain ⟨n, -, h⟩ := List.mem_map.1 h
    cases h
  · exact h

/-- The copies are those of the relationships that are met. -/
theorem mem_copies_iff {f : Fact} :
    f ∈ copies options g ↔ options.copies = true ∧
      ∃ r, .ofRelation r ∈ NodeShape.allFacts g ∧ ∃ p ∈ r.properties,
        f = .ofProperty ⟨r.subject, p, some r.predicate⟩ := by
  have hmem : f ∈ copiesOf ((NodeShape.ofGraph g).flatMap (·.facts g)) ↔
      ∃ r, .ofRelation r ∈ NodeShape.allFacts g ∧ ∃ p ∈ r.properties,
        f = .ofProperty ⟨r.subject, p, some r.predicate⟩ := by
    simp only [copiesOf, List.mem_flatMap, List.mem_filterMap, RelationFact.copies, List.mem_map]
    constructor
    · rintro ⟨r, ⟨f', ⟨n, hn, hf'⟩, hr⟩, q, ⟨p, hp, rfl⟩, rfl⟩
      cases f' with
      | ofRelation r' =>
        cases hr
        exact ⟨r, List.mem_append_right _ (List.mem_flatMap.2 ⟨n, hn, hf'⟩), p, hp, rfl⟩
      | ofClass | ofProperty => cases hr
    · rintro ⟨r, hr, p, hp, rfl⟩
      obtain ⟨n, hn, hr⟩ := List.mem_flatMap.1 (mem_facts_of_mem_allFacts hr)
      exact ⟨r, ⟨_, ⟨n, hn, hr⟩, rfl⟩, _, ⟨p, hp, rfl⟩, rfl⟩
  unfold copies copiesOfShapes
  split
  · next h => simp only [h, true_and, hmem]
  · next h => simp [h]

/-- Copies are copies. -/
theorem isCopy_of_mem_copies {f : Fact} (h : f ∈ copies options g) : f.isCopy = true := by
  obtain ⟨-, r, -, p, -, rfl⟩ := mem_copies_iff.1 h
  rfl

/-- The facts of a graph that are no copies. -/
theorem shapeFacts_ofShapes (options : ReadingOptions) (g : Graph) :
    (ofShapes options g).shapeFacts = (own options g).toList := by
  have hown : ∀ f ∈ (own options g).toList, f.isCopy = false := fun f hf =>
    isCopy_of_mem_allFacts (mem_allFacts_of_mem_own hf)
  have hcopies : ∀ f ∈ newFacts (own options g).facts.keys (copies options g), f.isCopy = true :=
    fun f hf => isCopy_of_mem_copies (of_mem_newFacts hf).1
  rw [shapeFacts, toList_ofShapes, List.filter_append,
    List.filter_eq_self.2 fun f hf => by simp [hown f hf],
    List.filter_eq_nil_iff.2 fun f hf => by simp [hcopies f hf], List.append_nil]

/-! ## Closure -/

/-- A fact with the identifier of a class is about a class of the same subject. -/
private theorem exists_class_of_id_eq {f : Fact} {c : ClassFact} (h : f.id = Fact.id (.ofClass c)) :
    ∃ d, f = .ofClass d ∧ d.subject = c.subject := by
  obtain ⟨d, hd⟩ := Option.isSome_iff_exists.1 (Fact.kind_eq_of_id_eq h).1
  obtain rfl := Fact.class?_eq_some_iff.1 hd
  exact ⟨d, rfl, (String.append_right_inj "type:").1 h⟩

/-- The subject of a node shape stands for a class. -/
theorem hasSubject_of_mem_ofGraph {n : NodeShape} (hn : n ∈ NodeShape.ofGraph g) :
    (ofShapes options g).HasSubject n.subject := by
  have hmet : .ofClass ⟨n.subject, n.target⟩ ∈ NodeShape.allFacts g :=
    List.mem_append_left _ (List.mem_map.2 ⟨n, hn, rfl⟩)
  obtain ⟨f, hf, hid⟩ := exists_mem_own_of_mem options hmet
  obtain ⟨d, rfl, hd⟩ := exists_class_of_id_eq hid
  refine ⟨d, mem_classFacts_iff.2 ?_, hd⟩
  rw [toList_ofShapes]
  exact List.mem_append_left _ hf

/-- What a fact that is no copy looks like when it was read. -/
theorem mem_allFacts_of_mem_shapeFacts {f : Fact} (h : f ∈ (ofShapes options g).shapeFacts) :
    f ∈ NodeShape.allFacts g := by
  rw [shapeFacts_ofShapes] at h
  exact mem_allFacts_of_mem_own h

/-- A fact that was met at a property shape is about a subject that stands for a class. -/
private theorem exists_fact_eq_of_mem {f : Fact} (h : f ∈ (ofShapes options g).shapeFacts)
    (hclass : f.class? = none) :
    ∃ said subject, f = PropertyShape.fact subject said ∧
      (ofShapes options g).HasSubject subject := by
  rcases List.mem_append.1 (mem_allFacts_of_mem_shapeFacts h) with h | h
  · obtain ⟨n, -, rfl⟩ := List.mem_map.1 h
    cases hclass
  · obtain ⟨n, hn, h⟩ := List.mem_flatMap.1 h
    obtain ⟨value, -, said, -, rfl⟩ := mem_facts_iff.1 h
    exact ⟨said, n.subject, rfl, hasSubject_of_mem_ofGraph hn⟩

/-- **Closure.** The statements of every graph are closed. -/
theorem closed_ofShapes (options : ReadingOptions) (g : Graph) : (ofShapes options g).Closed where
  classes := by
    intro c hc
    have hshape : .ofClass c ∈ (ofShapes options g).shapeFacts :=
      mem_shapeFacts_iff.2 ⟨mem_classFacts_iff.1 hc, rfl⟩
    rcases List.mem_append.1 (mem_allFacts_of_mem_shapeFacts hshape) with h | h
    · obtain ⟨n, -, hn⟩ := List.mem_map.1 h
      cases hn
      rfl
    · obtain ⟨n, -, h⟩ := List.mem_flatMap.1 h
      obtain ⟨value, -, said, -, hsaid⟩ := mem_facts_iff.1 h
      cases said <;> cases hsaid
  properties := by
    intro p hp
    obtain ⟨hmem, hcopy⟩ := mem_ownPropertyFacts_iff.1 hp
    have hshape : .ofProperty p ∈ (ofShapes options g).shapeFacts :=
      mem_shapeFacts_iff.2 ⟨hmem, by simp [Fact.isCopy, PropertyFact.isCopy, hcopy]⟩
    obtain ⟨said, subject, hsaid, hsubject⟩ := exists_fact_eq_of_mem hshape rfl
    cases said <;> cases hsaid
    exact hsubject
  relations := by
    intro f hf
    have hshape : .ofRelation f ∈ (ofShapes options g).shapeFacts :=
      mem_shapeFacts_iff.2 ⟨mem_relationFacts_iff.1 hf, rfl⟩
    obtain ⟨said, subject, hsaid, hsubject⟩ := exists_fact_eq_of_mem hshape rfl
    cases said <;> cases hsaid
    exact hsubject
  targets := by
    intro f hf
    have hshape : .ofRelation f ∈ (ofShapes options g).shapeFacts :=
      mem_shapeFacts_iff.2 ⟨mem_relationFacts_iff.1 hf, rfl⟩
    obtain ⟨said, subject, hsaid, -⟩ := exists_fact_eq_of_mem hshape rfl
    cases said <;> cases hsaid
    rfl

/-! ## Exactness -/

/-- **Facts that are no copies.** If no two of them share an identifier, exactly the stated ones are
read. -/
theorem mem_content_ofShapes_iff (options : ReadingOptions) (h : Unambiguous g.toSet)
    (hid : ∀ f₁ f₂, States g.toSet f₁ → States g.toSet f₂ → f₁.id = f₂.id →
      f₁.content = f₂.content) {c : Fact × Multiset Property} :
    c ∈ (ofShapes options g).content ↔ ∃ f, States g.toSet f ∧ f.content = c := by
  rw [content, shapeFacts_ofShapes, List.mem_map]
  constructor
  · rintro ⟨f, hf, rfl⟩
    exact ⟨f, states_of_mem_allFacts h (mem_allFacts_of_mem_own hf), rfl⟩
  · rintro ⟨f, hf, rfl⟩
    obtain ⟨f₁, hmet, hcontent⟩ := (states_iff h).1 hf
    -- the fact that stays under the identifier need not be the one that was met
    obtain ⟨f₂, hf₂, hids⟩ := exists_mem_own_of_mem options hmet
    have hstates := states_of_mem_allFacts h (mem_allFacts_of_mem_own hf₂)
    exact ⟨f₂, hf₂, hid f₂ f hstates hf (hids.trans (Fact.id_eq_of_content_eq hcontent))⟩

/-- The copies that are read are stated. -/
private theorem stated_of_mem_newFacts (h : Unambiguous g.toSet) {f : Fact}
    (hf : f ∈ newFacts (own options g).facts.keys (copies options g)) :
    Stated g.toSet options f := by
  obtain ⟨hmem, hnew⟩ := of_mem_newFacts hf
  obtain ⟨hcopies, r, hr, p, hp, rfl⟩ := mem_copies_iff.1 hmem
  refine .copy hcopies (states_of_mem_allFacts h hr) hp ?_
  intro q hq hid
  obtain ⟨q₁, hmet, hcontent⟩ := (states_iff h).1 hq
  obtain ⟨q₂, hq₂, hids⟩ := exists_mem_own_of_mem options hmet
  refine hnew (List.mem_map.2 ⟨q₂, hq₂, ?_⟩)
  exact (hids.trans (Fact.id_eq_of_content_eq hcontent)).trans hid

/-- Every copy of a property of a stated relationship is met. -/
theorem mem_copies (h : Unambiguous g.toSet) {r : RelationFact} {p : Property}
    (hcopies : options.copies = true) (hr : States g.toSet (.ofRelation r))
    (hp : p ∈ r.properties) :
    Fact.ofProperty ⟨r.subject, p, some r.predicate⟩ ∈ copies options g := by
  obtain ⟨q, hq, hcontent⟩ := (states_iff h).1 hr
  obtain ⟨r', rfl, hr'⟩ := Fact.content_ofRelation_eq hcontent
  have hp' : p ∈ r'.properties := (RelationFact.perm_of_content_eq hr').mem_iff.2 hp
  refine mem_copies_iff.2 ⟨hcopies, r', hq, p, hp', ?_⟩
  simp only [RelationFact.content, Prod.mk.injEq, RelationFact.mk.injEq] at hr'
  rw [hr'.1.1, hr'.1.2.1]

/-- Of every stated copy, one with its identifier is read. -/
private theorem exists_mem_newFacts_of_copy (h : Unambiguous g.toSet) {r : RelationFact}
    {p : Property}
    (hcopies : options.copies = true) (hr : States g.toSet (.ofRelation r)) (hp : p ∈ r.properties)
    (hfree : ∀ q, States g.toSet q →
      q.id ≠ Fact.id (.ofProperty ⟨r.subject, p, some r.predicate⟩)) :
    ∃ f ∈ newFacts (own options g).facts.keys (copies options g),
      f.id = Fact.id (.ofProperty ⟨r.subject, p, some r.predicate⟩) := by
  rcases id_mem_of_mem (own options g).facts.keys (mem_copies h hcopies hr hp) with hknown | hnew
  · obtain ⟨f, hf, hid⟩ := List.mem_map.1 hknown
    exact absurd hid (hfree f (states_of_mem_allFacts h (mem_allFacts_of_mem_own hf)))
  · exact hnew

/-- Whether stated facts share identifiers is checked on the facts that are met. -/
private theorem content_eq_of_stated (options : ReadingOptions) (h : Unambiguous g.toSet)
    (hid : ∀ a ∈ NodeShape.allFacts g ++ copies options g,
      ∀ b ∈ NodeShape.allFacts g ++ copies options g, a.id = b.id → a.content = b.content)
    {f₁ f₂ : Fact} (h₁ : Stated g.toSet options f₁) (h₂ : Stated g.toSet options f₂)
    (hf : f₁.id = f₂.id) : f₁.content = f₂.content := by
  have hmet : ∀ f, Stated g.toSet options f →
      ∃ a ∈ NodeShape.allFacts g ++ copies options g, a.content = f.content := by
    intro f hf
    cases hf with
    | own hf =>
      obtain ⟨a, ha, hcontent⟩ := (states_iff h).1 hf
      exact ⟨a, List.mem_append_left _ ha, hcontent⟩
    | copy hcopies hr hp hfree =>
      exact ⟨_, List.mem_append_right _ (mem_copies h hcopies hr hp), rfl⟩
  obtain ⟨a, ha, hca⟩ := hmet f₁ h₁
  obtain ⟨b, hb, hcb⟩ := hmet f₂ h₂
  have hab : a.id = b.id := by
    rw [Fact.id_eq_of_content_eq hca, Fact.id_eq_of_content_eq hcb, hf]
  rw [← hca, ← hcb, hid a ha b hb hab]

/-- **Exactness.** From an unambiguous graph in which no two stated facts share an identifier,
exactly the stated facts are read, each of them once, in whatever order the triples are listed.

**Proof sketch.** What is stated depends on the set of triples only, so the listing may be taken as
the graph itself. Every fact that is met is stated, and every stated fact is met up to the order of
its properties. Of the facts that are met under one identifier the last one stays, and it has the
content of all the others. A copy is dropped if its identifier is taken by a fact that is no copy,
and then it is not stated, or by an earlier copy, which is the same fact. -/
theorem ofShapes_stated (options : ReadingOptions) (g : Graph) (h : Unambiguous g.toSet)
    (hid : ∀ f₁ f₂, Stated g.toSet options f₁ → Stated g.toSet options f₂ → f₁.id = f₂.id →
      f₁.content = f₂.content) (g' : Graph) (hg : g'.triples.Perm g.triples) :
    ((ofShapes options g').toList.map Fact.content).Nodup ∧
      ∀ c, c ∈ (ofShapes options g').toList.map Fact.content ↔
        ∃ f, Stated g.toSet options f ∧ f.content = c := by
  rw [← Graph.toSet_eq_of_perm hg] at h hid ⊢
  have hown : ∀ f₁ f₂, States g'.toSet f₁ → States g'.toSet f₂ → f₁.id = f₂.id →
      f₁.content = f₂.content := fun f₁ f₂ h₁ h₂ => hid f₁ f₂ (.own h₁) (.own h₂)
  have hcontent := fun c => mem_content_ofShapes_iff options h hown (c := c)
  simp only [content, shapeFacts_ofShapes] at hcontent
  constructor
  · have hids : ((ofShapes options g').toList.map Fact.id).Nodup :=
      (ofShapes options g').facts.nodup_keys
    rw [List.Nodup, List.pairwise_map] at hids ⊢
    exact hids.imp fun hne heq => hne (Fact.id_eq_of_content_eq heq)
  · intro c
    rw [toList_ofShapes, List.map_append, List.mem_append, hcontent]
    constructor
    · rintro (⟨f, hf, rfl⟩ | hc)
      · exact ⟨f, .own hf, rfl⟩
      · obtain ⟨f, hf, rfl⟩ := List.mem_map.1 hc
        exact ⟨f, stated_of_mem_newFacts h hf, rfl⟩
    · rintro ⟨f, hf, rfl⟩
      cases hf with
      | own hf => exact .inl ⟨f, hf, rfl⟩
      | copy hcopies hr hp hfree =>
        obtain ⟨f', hf', hids⟩ := exists_mem_newFacts_of_copy h hcopies hr hp hfree
        refine .inr (List.mem_map.2 ⟨f', hf', ?_⟩)
        exact hid f' _ (stated_of_mem_newFacts h hf') (.copy hcopies hr hp hfree) hids

/-- People who know each other since some date, and who have names. -/
def peopleTriples : List Triple :=
  let person : Iri := ⟨"http://example.org/Person"⟩
  let shape : Subject := .iri ⟨"http://example.org/PersonShape"⟩
  let knows : Rdf.BlankNode := .named "knows"
  let since : Rdf.BlankNode := .named "since"
  let name : Rdf.BlankNode := .named "name"
  [⟨shape, Vocabulary.type, .iri Vocabulary.nodeShape⟩,
    ⟨shape, Vocabulary.targetClass, .iri person⟩,
    ⟨shape, Vocabulary.property, .blank knows⟩,
    ⟨.blank knows, Vocabulary.path, .iri ⟨"http://example.org/knows"⟩⟩,
    ⟨.blank knows, Vocabulary.class, .iri person⟩,
    ⟨.blank knows, Vocabulary.property, .blank since⟩,
    ⟨.blank since, Vocabulary.path, .iri ⟨"http://example.org/since"⟩⟩,
    ⟨.blank since, Vocabulary.datatype, .iri (xsd "date")⟩,
    ⟨.blank since, Vocabulary.maxCount, .literal (.other "1" (xsd "integer"))⟩,
    ⟨shape, Vocabulary.property, .blank name⟩,
    ⟨.blank name, Vocabulary.path, .iri ⟨"http://example.org/name"⟩⟩,
    ⟨.blank name, Vocabulary.datatype, .iri (xsd "string")⟩]

/-- The graph of some people. -/
def people : Graph := ⟨peopleTriples, by decide +kernel⟩

/-- Listed backwards, the graph of some people states what it states. -/
theorem ofShapes_stated_people :
    Unambiguous people.toSet ∧
      (∀ f₁ f₂, Stated people.toSet {} f₁ → Stated people.toSet {} f₂ → f₁.id = f₂.id →
        f₁.content = f₂.content) ∧
      people.backwards.triples.Perm people.triples ∧
      ((ofShapes {} people.backwards).toList.map Fact.content).Nodup ∧
      ∀ c, c ∈ (ofShapes {} people.backwards).toList.map Fact.content ↔
        ∃ f, Stated people.toSet {} f ∧ f.content = c := by
  have h : Unambiguous people.toSet := by decide +kernel
  have hmet : ∀ a ∈ NodeShape.allFacts people ++ copies {} people,
      ∀ b ∈ NodeShape.allFacts people ++ copies {} people, a.id = b.id →
        a.content = b.content := by decide +kernel
  have hid : ∀ f₁ f₂, Stated people.toSet {} f₁ → Stated people.toSet {} f₂ → f₁.id = f₂.id →
      f₁.content = f₂.content := fun f₁ f₂ => content_eq_of_stated {} h hmet
  have hperm := people.backwards_perm
  exact ⟨h, hid, hperm, ofShapes_stated {} people h hid people.backwards hperm⟩

end Statements

end ShapeSchema
