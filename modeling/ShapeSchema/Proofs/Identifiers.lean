import ShapeSchema.Proofs.Statements

/-!
# What identifiers tell apart

The identifier of a fact puts its kind, its subject and its names together, with colons between
them. So facts with one identifier are of one kind. If neither subjects nor objects hold colons
themselves, an identifier can be cut in one way only; such facts share an identifier just if they
are about the same thing, and a fact takes the place of another one only then. A colon in a subject
may be taken for the one behind it.

## Main definitions

* `ShapeSchema.Topic` — what a fact is about.
* `ShapeSchema.Topic.Legible` — subject and object hold no colons.

## Main results

* `ShapeSchema.Topic.eq_of_id_eq` — legible topics with one identifier are equal.
* `ShapeSchema.Statements.topics_ofList` — which facts are replaced while facts are inserted.
* `ShapeSchema.Statements.topics_urnFacts` — a colon makes a fact disappear.
-/

namespace ShapeSchema

/-! ## Cutting a text -/

/-- What stands before the first mark of a text and what stands behind it belong to the text. -/
private theorem Text.append_mark_inj {mark : Char} {a b c d : List Char} (ha : mark ∉ a)
    (hc : mark ∉ c) (h : a ++ mark :: b = c ++ mark :: d) : a = c ∧ b = d := by
  induction a generalizing c with
  | nil =>
    cases c with
    | nil => exact ⟨rfl, (List.cons.inj h).2⟩
    | cons y c =>
      have hy : mark = y := (List.cons.inj h).1
      exact absurd (hy ▸ List.mem_cons_self) hc
  | cons x a ih =>
    cases c with
    | nil =>
      have hx : x = mark := (List.cons.inj h).1
      exact absurd (hx ▸ List.mem_cons_self) ha
    | cons y c =>
      rw [List.mem_cons, not_or] at ha hc
      obtain ⟨rfl, htail⟩ := List.cons.inj h
      obtain ⟨rfl, hbd⟩ := ih ha.2 hc.2 htail
      exact ⟨rfl, hbd⟩

/-- So do the parts around the last mark. -/
private theorem Text.append_mark_inj_right {mark : Char} {a b c d : List Char} (hb : mark ∉ b)
    (hd : mark ∉ d) (h : a ++ mark :: b = c ++ mark :: d) : a = c ∧ b = d := by
  have hreverse := congrArg List.reverse h
  simp only [List.reverse_append, List.reverse_cons, List.append_assoc, List.singleton_append]
    at hreverse
  obtain ⟨hbd, hac⟩ := append_mark_inj (List.mem_reverse.not.2 hb) (List.mem_reverse.not.2 hd)
    hreverse
  exact ⟨List.reverse_injective hac, List.reverse_injective hbd⟩

/-! ## Topics -/

/-- What a fact is about: its kind, its subject, and what it says of the subject. -/
inductive Topic where
  /-- What a subject stands for. -/
  | ofClass (subject : String)
  /-- The property of a subject with a name. -/
  | ofProperty (subject name : String)
  /-- The relationship of a subject to an object with a name. -/
  | ofRelation (subject name object : String)
  deriving DecidableEq

/-- What a fact is about. -/
def Fact.topic : Fact → Topic
  | ofClass f => .ofClass f.subject
  | ofProperty f => .ofProperty f.subject f.name
  | ofRelation f => .ofRelation f.subject f.name f.object

namespace Topic

/-- The identifier of the facts about a topic. -/
def id : Topic → String
  | ofClass subject => "type:" ++ subject
  | ofProperty subject name => "property:" ++ subject ++ ":" ++ name
  | ofRelation subject name object => "edge:" ++ subject ++ ":" ++ name ++ ":" ++ object

/-- Neither the subject nor the object holds a colon; names may. -/
def Legible : Topic → Prop
  | ofClass _ => True
  | ofProperty subject _ => ':' ∉ subject.toList
  | ofRelation subject _ object => ':' ∉ subject.toList ∧ ':' ∉ object.toList

instance : DecidablePred Legible
  | ofClass _ => inferInstanceAs (Decidable True)
  | ofProperty _ _ => inferInstanceAs (Decidable (_ ∉ _))
  | ofRelation _ _ _ => inferInstanceAs (Decidable (_ ∧ _))

/-- **Identifiers** of legible topics are distinct.

**Proof sketch.** The kind of a topic is read off its first character. The subject ends at the first
colon behind the kind and the object begins behind the last one. -/
theorem eq_of_id_eq {a b : Topic} (ha : a.Legible) (hb : b.Legible) (h : a.id = b.id) : a = b := by
  have hhead := congrArg (fun id => id.toList.head?) h
  cases a with
  | ofClass subject =>
    cases b with
    | ofClass subject' =>
      simp only [id, String.append_right_inj] at h
      rw [h]
    | ofProperty | ofRelation => simp [id] at hhead
  | ofProperty subject name =>
    cases b with
    | ofProperty subject' name' =>
      simp only [id, String.append_assoc, String.append_right_inj] at h
      have hlist := congrArg String.toList h
      simp only [String.toList_append] at hlist
      obtain ⟨hsubject, hname⟩ := Text.append_mark_inj ha hb hlist
      rw [String.toList_inj.1 hsubject, String.toList_inj.1 hname]
    | ofClass | ofRelation => simp [id] at hhead
  | ofRelation subject name object =>
    cases b with
    | ofRelation subject' name' object' =>
      simp only [id, String.append_assoc, String.append_right_inj] at h
      have hlist := congrArg String.toList h
      simp only [String.toList_append] at hlist
      obtain ⟨hsubject, hrest⟩ := Text.append_mark_inj ha.1 hb.1 hlist
      obtain ⟨hname, hobject⟩ := Text.append_mark_inj_right ha.2 hb.2 hrest
      rw [String.toList_inj.1 hsubject, String.toList_inj.1 hname, String.toList_inj.1 hobject]
    | ofClass | ofProperty => simp [id] at hhead

end Topic

/-- A fact is known by its topic. -/
theorem Fact.id_eq (f : Fact) : f.id = f.topic.id := by
  cases f <;> rfl

/-- Facts with legible topics are known by one identifier just if they have one topic. -/
theorem Fact.id_eq_iff {f g : Fact} (hf : f.topic.Legible) (hg : g.topic.Legible) :
    f.id = g.id ↔ f.topic = g.topic := by
  rw [id_eq, id_eq]
  exact ⟨Topic.eq_of_id_eq hf hg, congrArg Topic.id⟩

/-! ## Insertions -/

namespace Statements

/-- A fact that an insertion removes has the identifier of the new one. -/
private theorem id_eq_of_replaced {s : Statements} {f g : Fact} (hg : g ∈ s.toList)
    (hgone : g ∉ (s.insert f).toList) : g.id = f.id := by
  by_contra hne
  exact hgone (Registry.mem_insert_iff.2 (.inr ⟨hg, hne⟩))

/-- **Replacement.** Insert any facts whose subjects and objects hold no colons. Facts share an
identifier just if they are about the same thing. So an insertion removes a fact only for one about
the same thing, and in the end there is a fact about everything that one was inserted about. -/
theorem topics_ofList (name space : String) (facts : List Fact)
    (hlegible : ∀ f ∈ facts, f.topic.Legible) :
    (∀ f ∈ facts, ∀ g ∈ facts, f.id = g.id ↔ f.topic = g.topic) ∧
      (∀ before f after, facts = before ++ f :: after →
        ∀ g ∈ (ofList name space before).toList,
          g ∉ ((ofList name space before).insert f).toList → g.topic = f.topic) ∧
      ∀ f ∈ facts, ∃ g ∈ (ofList name space facts).toList, g.topic = f.topic := by
  have hids : ∀ f ∈ facts, ∀ g ∈ facts, f.id = g.id ↔ f.topic = g.topic := fun f hf g hg =>
    Fact.id_eq_iff (hlegible f hf) (hlegible g hg)
  refine ⟨hids, ?_, ?_⟩
  · rintro before f after rfl g hg hgone
    have hid := id_eq_of_replaced hg hgone
    have hmem : g ∈ before ++ f :: after :=
      List.mem_append_left _ (Registry.mem_of_mem_ofList hg)
    exact (hids g hmem f (by simp)).1 hid
  · intro f hf
    have hkey : f.id ∈ (ofList name space facts).facts.keys :=
      Registry.mem_keys_ofList.2 (List.mem_map_of_mem hf)
    obtain ⟨g, hg, hid⟩ := List.mem_map.1 hkey
    exact ⟨g, hg, (hids g (Registry.mem_of_mem_ofList hg) f hf).1 hid⟩

/-- A class, a relationship and two properties, one of whose names holds a colon. -/
def bookFacts : List Fact :=
  let text : Iri := xsd "string"
  [.ofClass ⟨"Book", ⟨"http://example.org/Book"⟩⟩,
    .ofProperty ⟨"Book", ⟨⟨"http://example.org/dc:title"⟩, text, ⟨0, none⟩⟩, none⟩,
    .ofRelation (.toClass "Book" ⟨"http://example.org/by"⟩ ⟨"http://example.org/Book"⟩ .any []),
    .ofProperty ⟨"Book", ⟨⟨"http://example.org/v2/dc:title"⟩, text, ⟨1, some 1⟩⟩, none⟩]

/-- A title is replaced by a title. -/
theorem topics_bookFacts :
    (∀ f ∈ bookFacts, f.topic.Legible) ∧
      (∀ f ∈ bookFacts, ∀ g ∈ bookFacts, f.id = g.id ↔ f.topic = g.topic) ∧
      (∀ before f after, bookFacts = before ++ f :: after →
        ∀ g ∈ (ofList "books" "http://example.org/" before).toList,
          g ∉ ((ofList "books" "http://example.org/" before).insert f).toList →
            g.topic = f.topic) ∧
      ∀ f ∈ bookFacts, ∃ g ∈ (ofList "books" "http://example.org/" bookFacts).toList,
        g.topic = f.topic := by
  have hlegible : ∀ f ∈ bookFacts, f.topic.Legible := by decide +kernel
  exact ⟨hlegible, topics_ofList "books" "http://example.org/" bookFacts hlegible⟩

/-- Properties of two classes whose identifiers have neither slashes nor hashes, so that they are
their own local names. -/
def urnFacts : List Fact :=
  let text : Iri := xsd "string"
  [.ofProperty ⟨"urn:a", ⟨⟨"http://example.org/b:c"⟩, text, .any⟩, none⟩,
    .ofProperty ⟨"urn:a:b", ⟨⟨"http://example.org/c"⟩, text, .any⟩, none⟩]

/-- A colon in a subject lets a property of one subject take the place of a property of another
one. -/
theorem topics_urnFacts :
    (¬ ∀ f g : Fact, f.id = g.id → f.topic = g.topic) ∧
      urnFacts.map Fact.id = ["property:urn:a:b:c", "property:urn:a:b:c"] ∧
      urnFacts.map Fact.topic = [.ofProperty "urn:a" "b:c", .ofProperty "urn:a:b" "c"] ∧
      (ofList "urns" "http://example.org/" urnFacts).toList.map Fact.topic =
        [.ofProperty "urn:a:b" "c"] := by
  refine ⟨fun h => ?_, by decide +kernel, by decide +kernel, by decide +kernel⟩
  have htopic := h urnFacts[0] urnFacts[1] (by decide +kernel)
  exact absurd htopic (by decide +kernel)

end Statements

end ShapeSchema
