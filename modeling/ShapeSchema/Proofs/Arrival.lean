import Mathlib.Data.List.Perm.Basic
import Mathlib.Data.Set.Function
import ShapeSchema.Proofs.RoundTrip

/-!
# Facts in another order

Blank nodes are numbered in the order in which facts arrive. In another order, the same facts get
the same graph with other numbers. The property shapes of a fact are a block of consecutive numbers,
wherever the fact stands, and inside the block the properties of a relationship can change places.
So the property shapes of the first order can be listed in the way of the second one, and the place
in this list is the number that a property shape has there.

## Main definitions

* `ShapeSchema.Rdf.Triple.rename` — a triple with other blank nodes.
* `ShapeSchema.Rdf.IsRenaming`, `ShapeSchema.Rdf.SameUpToRenaming` — graphs that differ in their
  blank nodes only.
* `ShapeSchema.MadeShape.Renumbers` — lists of property shapes that differ in order and numbers.
* `ShapeSchema.Statements.Rearranged` — the same facts in another order.
* `ShapeSchema.Statements.minted` — the facts whose subjects have shapes.

## Main results

* `ShapeSchema.Statements.shapeIri?_eq_of_content_perm` — names of shapes do not depend on an order.
* `ShapeSchema.Statements.exists_renumbering` — property shapes of rearranged facts.
* `ShapeSchema.Statements.mem_blankNodes_toShapes_iff` — the blank nodes of a graph.
* `ShapeSchema.Statements.toShapes_rearranged` — an order changes names of blank nodes only.
-/

namespace ShapeSchema

open Rdf (BlankNode Graph Literal Subject Term Triple)

/-! ## Renamings -/

namespace Rdf

/-- A subject with another blank node. -/
def Subject.rename (σ : BlankNode → BlankNode) : Subject → Subject
  | iri i => .iri i
  | blank b => .blank (σ b)

/-- A term with another blank node. -/
def Term.rename (σ : BlankNode → BlankNode) : Term → Term
  | iri i => .iri i
  | blank b => .blank (σ b)
  | literal l => .literal l

/-- A triple with other blank nodes. -/
def Triple.rename (σ : BlankNode → BlankNode) (t : Triple) : Triple :=
  ⟨t.subject.rename σ, t.predicate, t.object.rename σ⟩

/-- The blank nodes of a graph. -/
def blankNodes (g : Set Triple) : Set BlankNode :=
  fun b => ∃ t ∈ g, t.subject = .blank b ∨ t.object = .blank b

/-- A renaming leads from one graph to another one, and no two blank nodes become one. -/
structure IsRenaming (σ : BlankNode → BlankNode) (g h : Set Triple) : Prop where
  /-- Blank nodes stay apart. -/
  injOn : Set.InjOn σ (blankNodes g)
  /-- The triples become those of the other graph. -/
  image : Triple.rename σ '' g = h

/-- Two graphs differ in their blank nodes only. -/
def SameUpToRenaming (g h : Set Triple) : Prop := ∃ σ, IsRenaming σ g h

/-- A fresh blank node with another number. -/
def BlankNode.renumber (σ : Nat → Nat) : BlankNode → BlankNode
  | named label => .named label
  | fresh number => .fresh (σ number)

end Rdf

/-! ## Property shapes with other numbers -/

namespace MadeShape

/-- A property shape with other numbers. -/
def renumber (σ : Nat → Nat) (m : MadeShape) : MadeShape :=
  { m with owner := m.owner.rename (.renumber σ), number := σ m.number }

/-- The triples of a property shape with other numbers. -/
theorem triples_renumber (σ : Nat → Nat) (m : MadeShape) :
    (m.renumber σ).triples = m.triples.map (Triple.rename (.renumber σ)) := by
  have hrange : ∀ range : ShapeRange, range.triple (m.renumber σ).node =
      (range.triple m.node).rename (.renumber σ) := by
    intro range
    cases range <;> rfl
  have hcardinality : ∀ c : Cardinality, c.triples (m.renumber σ).node =
      (c.triples m.node).map (Triple.rename (.renumber σ)) := by
    intro c
    unfold Cardinality.triples
    rw [List.map_append, List.map_map]
    congr 1
    split <;> rfl
  rw [triples, triples, List.map_append, List.map_cons, ← hrange, ← hcardinality]
  rfl

/-- A triple of a property shape says whose it is, or it is about the shape and ends in no blank
node. -/
private theorem eq_or_subject_of_mem_triples {m : MadeShape} {t : Triple} (h : t ∈ m.triples) :
    t = ⟨m.owner, Vocabulary.property, m.node.toTerm⟩ ∨
      t.subject = m.node ∧ ∀ b, t.object ≠ .blank b := by
  rcases mem_triples_iff.1 h with rfl | rfl | rfl | ⟨_, -, rfl⟩ | ⟨_, -, rfl⟩ | ⟨-, rfl⟩ |
    ⟨_, -, rfl⟩
  · exact .inl rfl
  all_goals exact .inr ⟨rfl, nofun⟩

/-- The first property shapes are in some order those of the second ones, up to numbers: where their
numbers become those of the second ones, they become the second ones themselves. -/
def Renumbers (l l' : List MadeShape) : Prop :=
  ∃ k : List MadeShape, k.Perm l ∧ k.length = l'.length ∧
    ∀ σ : Nat → Nat, k.map (fun m => σ m.number) = l'.map number → k.map (renumber σ) = l'

/-- Nothing is nothing in any order. -/
theorem Renumbers.nil : Renumbers [] [] := ⟨[], .nil, rfl, fun _ _ => rfl⟩

/-- Blocks of property shapes are put in order block by block. -/
theorem Renumbers.append {l₁ l₂ l₁' l₂' : List MadeShape} (h₁ : Renumbers l₁ l₁')
    (h₂ : Renumbers l₂ l₂') : Renumbers (l₁ ++ l₂) (l₁' ++ l₂') := by
  obtain ⟨k₁, hperm₁, hlength₁, hmap₁⟩ := h₁
  obtain ⟨k₂, hperm₂, hlength₂, hmap₂⟩ := h₂
  refine ⟨k₁ ++ k₂, hperm₁.append hperm₂, by simp [hlength₁, hlength₂], fun σ h => ?_⟩
  rw [List.map_append, List.map_append] at h
  obtain ⟨hleft, hright⟩ := List.append_inj h (by simp [hlength₁])
  rw [List.map_append, hmap₁ σ hleft, hmap₂ σ hright]

end MadeShape

/-- A list that is in some order a list of values comes from the arguments in this order. -/
private theorem exists_perm_of_perm_map {α β : Type} {f : α → β} {l : List α} {l' : List β}
    (h : l'.Perm (l.map f)) : ∃ k : List α, k.Perm l ∧ k.map f = l' := by
  obtain ⟨k, rfl, hk⟩ := (congrFun (congrFun (List.eq_map_comp_perm f) l') l).mpr h
  exact ⟨k, hk, rfl⟩

/-- The places of the values of a list are counted from the first one on. -/
private theorem map_idxOf_self {l : List Nat} (h : l.Nodup) :
    l.map (fun n => l.idxOf n) = List.range' 0 l.length := by
  refine List.ext_getElem (by simp) fun i hi _ => ?_
  simp [h.idxOf_getElem]

/-- Equal values have one order only. -/
private theorem eq_of_perm_of_forall_eq {α : Type} {l l' : List α} (h : l.Perm l')
    (heq : ∀ a ∈ l, ∀ b ∈ l, a = b) : l' = l := by
  cases l with
  | nil => exact List.nil_perm.1 h
  | cons a l =>
    have hl : a :: l = List.replicate (l.length + 1) a :=
      List.eq_replicate_iff.2 ⟨rfl, fun b hb => heq b hb a List.mem_cons_self⟩
    rw [hl] at h ⊢
    exact List.perm_replicate.1 h.symm

/-- The shapes of properties in another order. Their owner is renamed with them. -/
private theorem exists_perm_madeShapesOf {ps qs : List Property} (h : qs.Perm ps) (owner : Subject)
    (n n' : Nat) : ∃ k : List MadeShape, k.Perm (madeShapesOf owner n ps) ∧
      ∀ σ : Nat → Nat, k.map (fun m => σ m.number) = List.range' n' qs.length →
        k.map (MadeShape.renumber σ) = madeShapesOf (owner.rename (.renumber σ)) n' qs := by
  have hperm : qs.Perm ((ps.zipIdx n).map Prod.fst) := by rwa [List.zipIdx_map_fst]
  obtain ⟨z, hz, hfst⟩ := exists_perm_of_perm_map hperm
  refine ⟨z.map fun e => e.1.madeShape owner e.2, hz.map _, fun σ hσ => ?_⟩
  have hzip : qs.zipIdx n' = z.map fun e => (e.1, σ e.2) := by
    rw [List.map_map] at hσ
    rw [List.zipIdx_eq_zip_range', ← hσ, ← hfst, List.zip_map']
    rfl
  rw [madeShapesOf, hzip, List.map_map, List.map_map]
  rfl

/-- What says in which place a fact belongs, besides its number and an order of properties. -/
def PlacedFact.key (p : PlacedFact) : Iri × Fact × Multiset Property := (p.shape, p.fact.content)

/-- **Property shapes of a fact.** In another place and with its properties in another order, a fact
has the same property shapes up to numbers. -/
theorem PlacedFact.renumbers {p q : PlacedFact} (h : p.key = q.key) :
    MadeShape.Renumbers p.madeShapes q.madeShapes := by
  obtain ⟨shape, n, f⟩ := p
  obtain ⟨shape', n', g⟩ := q
  simp only [key, Prod.mk.injEq] at h
  obtain ⟨rfl, hcontent⟩ := h
  cases f with
  | ofClass c =>
    rw [← Fact.eq_of_content_eq hcontent rfl]
    exact .nil
  | ofProperty f =>
    rw [← Fact.eq_of_content_eq hcontent rfl]
    refine ⟨_, .refl _, rfl, fun σ hσ => ?_⟩
    have hnumber : σ n = n' := List.head_eq_of_cons_eq hσ
    simp [madeShapes, Fact.madeShapes, MadeShape.renumber, Property.madeShape, hnumber,
      Rdf.Subject.rename]
  | ofRelation f =>
    obtain ⟨g, rfl, hfg⟩ := Fact.content_ofRelation_eq hcontent.symm
    have hproperties := RelationFact.perm_of_content_eq hfg
    obtain ⟨k, hk, hmap⟩ :=
      exists_perm_madeShapesOf hproperties (.blank (.fresh n)) (n + 1) (n' + 1)
    refine ⟨f.madeShape (.iri shape) n :: k, hk.cons _, ?_, fun σ hσ => ?_⟩
    · simp [madeShapes, Fact.madeShapes, hk.length_eq, madeShapesOf, hproperties.length_eq]
    · have hnumber : σ n = n' := List.head_eq_of_cons_eq hσ
      have hnumbers : k.map (fun m => σ m.number) = List.range' (n' + 1) g.properties.length := by
        rw [← numbers_madeShapesOf (.blank (.fresh n'))]
        exact List.tail_eq_of_cons_eq hσ
      have howner : (Subject.blank (.fresh n)).rename (.renumber σ) = .blank (.fresh n') :=
        congrArg (fun number => Subject.blank (.fresh number)) hnumber
      -- besides its properties, the relationship is the same
      simp only [RelationFact.content, Prod.mk.injEq, RelationFact.mk.injEq] at hfg
      rw [List.map_cons, hmap σ hnumbers, howner]
      simp [madeShapes, Fact.madeShapes, MadeShape.renumber, RelationFact.madeShape, hnumber,
        Rdf.Subject.rename, hfg]

/-- Many facts in other places have the same property shapes up to numbers. -/
theorem PlacedFact.renumbers_flatMap {ps qs : List PlacedFact} (h : ps.map key = qs.map key) :
    MadeShape.Renumbers (ps.flatMap madeShapes) (qs.flatMap madeShapes) := by
  induction ps generalizing qs with
  | nil =>
    obtain rfl : qs = [] := List.map_eq_nil_iff.1 h.symm
    exact .nil
  | cons p ps ih =>
    obtain ⟨q, qs, rfl, hkey, hkeys⟩ := List.map_eq_cons_iff.1 h.symm
    exact (renumbers hkey.symm).append (ih hkeys.symm)

/-! ## Rearranged facts -/

/-- Whether a fact is a copy belongs to its content. -/
private theorem Fact.isCopy_eq_of_content_eq {f g : Fact} (h : f.content = g.content) :
    f.isCopy = g.isCopy := by
  cases f with
  | ofRelation f =>
    obtain ⟨g, rfl, -⟩ := Fact.content_ofRelation_eq h.symm
    rfl
  | ofClass f | ofProperty f => rw [Fact.eq_of_content_eq h rfl]

namespace Statements

variable {s t : Statements}

/-- The same facts in another order, and the properties of each relationship in another order. Their
names may repeat, because each of them has a shape of its own. -/
def Rearranged (s t : Statements) : Prop :=
  t.space = s.space ∧ ∃ facts, s.toList.Perm facts ∧
    List.Forall₂ (fun f g => f.content = g.content) facts t.toList

/-- Rearranged facts say the same. -/
theorem Rearranged.content_perm (h : s.Rearranged t) : s.content.Perm t.content := by
  obtain ⟨-, facts, hperm, hforall⟩ := h
  have hfilter : ∀ {fs gs : List Fact}, List.Forall₂ (fun f g => f.content = g.content) fs gs →
      (fs.filter (!·.isCopy)).map Fact.content = (gs.filter (!·.isCopy)).map Fact.content := by
    intro fs gs hforall
    induction hforall with
    | nil => rfl
    | cons hfg _ ih =>
      rw [List.filter_cons, List.filter_cons, Fact.isCopy_eq_of_content_eq hfg]
      split
      · rw [List.map_cons, List.map_cons, hfg, ih]
      · exact ih
  rw [content, content, shapeFacts, shapeFacts, ← hfilter hforall]
  exact (hperm.filter _).map _

/-- **Names of shapes** do not depend on an order, because a subject stands for one class. -/
theorem shapeIri?_eq_of_content_perm (hspace : t.space = s.space)
    (h : s.content.Perm t.content) (subject : String) :
    t.shapeIri? subject = s.shapeIri? subject := by
  have hclasses := (classFacts_perm h).filter (·.subject = subject)
  rw [shapeIri?, shapeIri?, hspace, eq_of_perm_of_forall_eq hclasses fun c hc d hd => ?_]
  simp only [List.mem_filter, decide_eq_true_eq] at hc hd
  exact eq_of_subject_eq hc.1 hd.1 (hc.2.trans hd.2.symm)

/-! ## Facts with shapes -/

/-- The facts whose subjects have shapes, with these. -/
def minted (s : Statements) : List (Iri × Fact) :=
  s.shapeFacts.filterMap fun f => (s.shapeIri? f.subject).map (·, f)

/-- The facts with a place are those whose subjects have shapes. -/
private theorem map_placedFrom (s : Statements) (number : Nat) (fs : List Fact) :
    (s.placedFrom number fs).map (fun p => (p.shape, p.fact)) =
      fs.filterMap fun f => (s.shapeIri? f.subject).map (·, f) := by
  induction fs generalizing number with
  | nil => rfl
  | cons f fs ih =>
    unfold placedFrom
    rw [List.filterMap_cons]
    cases s.shapeIri? f.subject with
    | some shape => exact congrArg _ (ih _)
    | none => exact ih _

/-- The facts in their places are those with shapes. -/
theorem map_placed (s : Statements) : s.placed.map (fun p => (p.shape, p.fact)) = s.minted :=
  map_placedFrom s 0 _

/-- Where facts say the same, those with shapes are the same, up to their places. -/
private theorem keys_placed_perm (hspace : t.space = s.space)
    (h : s.content.Perm t.content) :
    (t.placed.map PlacedFact.key).Perm (s.placed.map PlacedFact.key) := by
  have hkeys : ∀ u : Statements, u.placed.map PlacedFact.key =
      u.content.filterMap fun c => (u.shapeIri? c.1.subject).map (·, c) := by
    intro u
    have hmap : u.placed.map PlacedFact.key = u.minted.map fun x => (x.1, x.2.content) := by
      rw [← map_placed, List.map_map]
      rfl
    rw [hmap, minted, List.map_filterMap, content, List.filterMap_map]
    refine List.filterMap_congr fun f _ => ?_
    have hsubject : f.content.1.subject = f.subject := by cases f <;> rfl
    rw [Function.comp, hsubject]
    cases u.shapeIri? f.subject <;> rfl
  have hshapes : t.shapeIri? = s.shapeIri? := funext (shapeIri?_eq_of_content_perm hspace h)
  rw [hkeys, hkeys, hshapes]
  exact h.symm.filterMap _

/-- **Renumbering.** Where facts say the same, a renumbering leads from the property shapes to
those of the other facts.

**Proof sketch.** The property shapes can be put into an order in which they correspond to those of
the other facts. The number of such a property shape is then the place in this order. -/
theorem exists_renumbering (hspace : t.space = s.space)
    (h : s.content.Perm t.content) :
    ∃ σ : Nat → Nat, Set.InjOn σ {n | n ∈ s.madeShapes.map MadeShape.number} ∧
      t.madeShapes.Perm (s.madeShapes.map (MadeShape.renumber σ)) := by
  obtain ⟨ps, hps, hkeys⟩ := exists_perm_of_perm_map (keys_placed_perm hspace h)
  obtain ⟨k, hk, hlength, hmap⟩ := PlacedFact.renumbers_flatMap hkeys
  have hperm : k.Perm s.madeShapes := hk.trans (hps.flatMap_right _)
  have hnodup : (k.map MadeShape.number).Nodup :=
    (hperm.map MadeShape.number).nodup_iff.2 s.nodup_numbers
  refine ⟨fun n => (k.map MadeShape.number).idxOf n, fun n hn n' _ heq => ?_, ?_⟩
  · have hmem : n ∈ k.map MadeShape.number := (hperm.map MadeShape.number).mem_iff.2 hn
    exact (List.idxOf_inj hmem).1 heq
  · obtain ⟨count, hnumbers⟩ := numbers_placedFrom t 0 t.shapeFacts
    have hcount : (k.map MadeShape.number).length = count := by
      rw [List.length_map, hlength, ← List.length_map MadeShape.number, placed, hnumbers,
        List.length_range']
    have hplaces : k.map (fun m => (k.map MadeShape.number).idxOf m.number) =
        (t.placed.flatMap PlacedFact.madeShapes).map MadeShape.number := by
      rw [placed, hnumbers, ← hcount, ← map_idxOf_self hnodup, List.map_map]
      rfl
    rw [madeShapes, ← hmap (fun n => (k.map MadeShape.number).idxOf n) hplaces]
    exact hperm.map _

/-! ## Graphs of rearranged facts -/

/-- A property shape stands in a node shape or in a property shape. -/
theorem owner_of_mem_madeShapes {m : MadeShape} (hm : m ∈ s.madeShapes) :
    (∃ p ∈ s.placed, m.owner = .iri p.shape) ∨ ∃ n ∈ s.madeShapes, m.owner = n.node := by
  obtain ⟨⟨shape, number, fact⟩, hp, hmem⟩ := List.mem_flatMap.1 hm
  cases fact with
  | ofClass c => simp [PlacedFact.madeShapes, Fact.madeShapes] at hmem
  | ofProperty f =>
    obtain rfl := List.mem_singleton.1 hmem
    exact .inl ⟨_, hp, rfl⟩
  | ofRelation f =>
    rcases List.mem_cons.1 hmem with rfl | hmem
    · exact .inl ⟨_, hp, rfl⟩
    · obtain ⟨e, -, rfl⟩ := List.mem_map.1 hmem
      exact .inr ⟨_, List.mem_flatMap.2 ⟨_, hp, List.mem_cons_self⟩, rfl⟩

/-- The blank nodes of the graph are those of its property shapes. -/
theorem mem_blankNodes_toShapes_iff {b : BlankNode} :
    b ∈ Rdf.blankNodes s.toShapes.toSet ↔ ∃ m ∈ s.madeShapes, b = .fresh m.number := by
  constructor
  · rintro ⟨u, hu, hb⟩
    rcases mem_toShapes_iff.1 hu with ⟨p, -, rfl⟩ | ⟨p, -, c, -, rfl⟩ | ⟨m, hm, hu⟩
    · simp at hb
    · simp at hb
    · have hnode : ∀ {n : MadeShape}, n.node = .blank b → b = .fresh n.number := fun h =>
        (Subject.blank.inj h).symm
      have hself : m.node = .blank b → ∃ m ∈ s.madeShapes, b = .fresh m.number := fun h =>
        ⟨m, hm, hnode h⟩
      rcases MadeShape.eq_or_subject_of_mem_triples hu with rfl | ⟨hsubject, hobject⟩
      · rcases hb with howner | hb
        · rcases owner_of_mem_madeShapes hm with ⟨p, -, hp⟩ | ⟨n, hn, hn'⟩
          · exact absurd (hp.symm.trans howner) nofun
          · exact ⟨n, hn, hnode (hn'.symm.trans howner)⟩
        · exact hself (Rdf.Subject.toTerm_injective hb)
      · exact hb.elim (fun hb => hself (hsubject.symm.trans hb)) fun hb => absurd hb (hobject b)
  · rintro ⟨m, hm, rfl⟩
    exact ⟨_, property_mem_toShapes_iff.2 ⟨m, hm, rfl, rfl⟩, .inr rfl⟩

/-- The triples of a node shape. -/
def nodeTriples (key : Iri × Fact × Multiset Property) : List Triple :=
  ⟨.iri key.1, Vocabulary.type, .iri Vocabulary.nodeShape⟩ ::
    key.2.1.class?.toList.map fun c => ⟨.iri key.1, Vocabulary.targetClass, .iri c.object⟩

/-- The triples of node shapes, and behind them those of property shapes. -/
def outline (s : Statements) : List Triple :=
  (s.placed.map PlacedFact.key).flatMap nodeTriples ++ s.madeShapes.flatMap MadeShape.triples

/-- The triples of the shapes, listed by what they are about. -/
private theorem mem_toShapes_iff_mem_outline {u : Triple} :
    u ∈ s.toShapes.toSet ↔ u ∈ s.outline := by
  have hclass : ∀ (f : Fact) (c : ClassFact), f.content.1.class? = some c ↔ f = .ofClass c := by
    intro f c
    cases f <;> simp [Fact.content, Fact.class?]
  simp only [mem_toShapes_iff, outline, nodeTriples, PlacedFact.key, List.mem_append,
    List.mem_flatMap, List.mem_map, List.mem_cons, Option.mem_toList, hclass,
    exists_exists_and_eq_and, and_or_left, exists_or, or_assoc, eq_comm (a := u)]

/-- With other numbers, the triples are those of the rearranged facts. -/
private theorem outline_perm {σ : Nat → Nat}
    (hkeys : (t.placed.map PlacedFact.key).Perm (s.placed.map PlacedFact.key))
    (hshapes : t.madeShapes.Perm (s.madeShapes.map (MadeShape.renumber σ))) :
    t.outline.Perm (s.outline.map (Triple.rename (.renumber σ))) := by
  have hnodes : ((s.placed.map PlacedFact.key).flatMap nodeTriples).map
      (Triple.rename (.renumber σ)) = (s.placed.map PlacedFact.key).flatMap nodeTriples := by
    rw [List.map_flatMap]
    refine List.flatMap_congr fun key _ => ?_
    rw [nodeTriples, List.map_cons, List.map_map]
    rfl
  have hmade : (s.madeShapes.flatMap MadeShape.triples).map (Triple.rename (.renumber σ)) =
      (s.madeShapes.map (MadeShape.renumber σ)).flatMap MadeShape.triples := by
    rw [List.map_flatMap, List.flatMap_map]
    exact List.flatMap_congr fun m _ => (m.triples_renumber σ).symm
  rw [outline, outline, List.map_append, hnodes, hmade]
  exact (hkeys.flatMap_right _).append (hshapes.flatMap_right _)

/-- **Arrival.** In another order, the same facts have the same graph up to the names of blank
nodes. -/
theorem toShapes_rearranged (h : s.Rearranged t) :
    Rdf.SameUpToRenaming s.toShapes.toSet t.toShapes.toSet := by
  obtain ⟨σ, hσ, hshapes⟩ := exists_renumbering h.1 h.content_perm
  refine ⟨.renumber σ, ?_, ?_⟩
  · intro b hb b' hb' heq
    obtain ⟨m, hm, rfl⟩ := mem_blankNodes_toShapes_iff.1 hb
    obtain ⟨m', hm', rfl⟩ := mem_blankNodes_toShapes_iff.1 hb'
    exact congrArg _ (hσ (List.mem_map_of_mem hm) (List.mem_map_of_mem hm')
      (BlankNode.fresh.inj heq))
  · have hperm := outline_perm (keys_placed_perm h.1 h.content_perm) hshapes
    ext u
    rw [mem_toShapes_iff_mem_outline, hperm.mem_iff, List.mem_map]
    simp only [Set.mem_image, mem_toShapes_iff_mem_outline]

end Statements

end ShapeSchema
