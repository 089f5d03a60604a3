import ShapeSchema.Proofs.Arrival
import ShapeSchema.Rdf.Outline

/-!
# Outlines do not depend on names

The outline of a graph is the same however its triples are listed, and whatever its blank nodes are
called. So it is a way to compare graphs whose blank nodes were numbered in different orders, as
those of the same facts in another order are.

A blank node is written along a path of distinct nodes that have properties. There are at most as
many of them as there are triples, and this is why the fuel that an outline starts with is enough.

## Main definitions

* `ShapeSchema.Rdf.Subject.Within`, `ShapeSchema.Rdf.Term.Within` — terms with given blank nodes.

## Main results

* `ShapeSchema.Rdf.Graph.outlineBlank_fuel` — more fuel changes nothing.
* `ShapeSchema.Rdf.IsRenaming.triples_perm` — a renaming of sets of triples, in terms of listings.
* `ShapeSchema.Rdf.IsRenaming.outlineBlank_rename` — blank nodes are written alike.
* `ShapeSchema.Rdf.SameUpToRenaming.sameOutline` — graphs that differ in the names of their blank
  nodes have one outline.
* `ShapeSchema.Statements.sameOutline_of_rearranged` — facts in another order.
-/

namespace ShapeSchema

namespace Rdf

/-! ## Sorted texts -/

/-- Texts are sorted in one way only. -/
theorem sortTexts_eq_of_perm {l m : List String} (h : l.Perm m) : sortTexts l = sortTexts m := by
  have hsorted (l : List String) : (sortTexts l).Pairwise fun a b => decide (a ≤ b) = true := by
    refine List.pairwise_mergeSort (fun a b c hab hbc => ?_) (fun a b => ?_) l
    · exact decide_eq_true (String.le_trans (of_decide_eq_true hab) (of_decide_eq_true hbc))
    · simpa using String.le_total a b
  have hperm : (sortTexts l).Perm (sortTexts m) :=
    (List.mergeSort_perm l _).trans (h.trans (List.mergeSort_perm m _).symm)
  refine hperm.eq_of_pairwise (fun a b _ _ hab hba => ?_) (hsorted l) (hsorted m)
  exact String.le_antisymm (of_decide_eq_true hab) (of_decide_eq_true hba)

/-! ## Blank nodes of a graph -/

/-- The subject is an IRI or one of the given blank nodes. -/
def Subject.Within (nodes : Set BlankNode) (s : Subject) : Prop := ∀ b, s = .blank b → b ∈ nodes

/-- The term is no blank node but one of the given ones. -/
def Term.Within (nodes : Set BlankNode) (o : Term) : Prop := ∀ b, o = .blank b → b ∈ nodes

/-- Only a blank node is the blank node of a subject. -/
theorem Subject.blank?_eq_some_iff {s : Subject} {b : BlankNode} :
    s.blank? = some b ↔ s = .blank b := by
  cases s <;> simp [Subject.blank?]

/-- A term with another name is written as before if blank nodes are. -/
private theorem Term.outline_rename {σ : BlankNode → BlankNode}
    {blankText blankText' : BlankNode → String}
    {o : Term} (h : ∀ b, o = .blank b → blankText' (σ b) = blankText b) :
    (o.rename σ).outline blankText' = o.outline blankText := by
  cases o with
  | iri i => rfl
  | literal l => rfl
  | blank b => exact h b rfl

namespace Graph

variable {g : Graph} {t : Triple}

/-- Subjects of triples are subjects with blank nodes of the graph. -/
private theorem subject_within (ht : t ∈ g.triples) : t.subject.Within (blankNodes g.toSet) :=
  fun _ hb => ⟨t, ht, .inl hb⟩

/-- Objects of triples are terms with blank nodes of the graph. -/
private theorem object_within (ht : t ∈ g.triples) : t.object.Within (blankNodes g.toSet) :=
  fun _ hb => ⟨t, ht, .inr hb⟩

/-- The properties of a subject are those of its triples. -/
theorem mem_propertiesOf_iff {s : Subject} {e : Iri × Term} :
    e ∈ g.propertiesOf s ↔ ⟨s, e.1, e.2⟩ ∈ g.triples := by
  rw [propertiesOf, List.mem_filterMap]
  constructor
  · rintro ⟨t, ht, heq⟩
    split at heq
    · next hs =>
      cases heq
      exact hs ▸ ht
    · cases heq
  · exact fun h => ⟨_, h, if_pos rfl⟩

/-- Roots have properties and are values of none. -/
theorem mem_rootBlanks_iff {b : BlankNode} :
    b ∈ g.rootBlanks ↔
      (∃ t ∈ g.triples, t.subject = .blank b) ∧ ∀ t ∈ g.triples, t.object ≠ .blank b := by
  simp only [rootBlanks, List.mem_eraseDups, List.mem_filter, List.mem_filterMap,
    Subject.blank?_eq_some_iff, decide_eq_true_eq]

/-- A list without its repetitions has none. -/
private theorem nodup_eraseDups : (nodes : List BlankNode) → nodes.eraseDups.Nodup
  | [] => .nil
  | b :: rest => by
    rw [List.eraseDups_cons, List.nodup_cons, List.mem_eraseDups]
    exact ⟨by simp, nodup_eraseDups _⟩
termination_by nodes => nodes.length
decreasing_by exact Nat.lt_succ_of_le (List.length_filter_le _ _)

/-- No root is listed twice. -/
theorem nodup_rootBlanks (g : Graph) : g.rootBlanks.Nodup := nodup_eraseDups _

/-! ## Fuel -/

/-- Distinct blank nodes that have properties are no more than the triples. -/
private theorem length_le_size {nodes : List BlankNode} (hnodup : nodes.Nodup)
    (hnodes : ∀ b ∈ nodes, ∃ t ∈ g.triples, t.subject = .blank b) : nodes.length ≤ g.size := by
  have hsubset : nodes.map Subject.blank ⊆ g.triples.map Triple.subject :=
    List.forall_mem_map.2 fun b hb =>
      let ⟨t, ht, hs⟩ := hnodes b hb
      List.mem_map.2 ⟨t, ht, hs⟩
  have hmap : (nodes.map Subject.blank).Nodup :=
    hnodup.map fun _ _ => Subject.blank.inj
  have hlength := (hmap.subperm hsubset).length_le
  rwa [List.length_map, List.length_map] at hlength

/-- **Fuel.** A blank node stands inside of distinct nodes that have properties. So if `fuel` and
the number of these nodes are more than the number of triples together, more fuel changes
nothing.

**Proof sketch.** Induction on the fuel. Without fuel, there would be more nodes than triples. With
some, the node has a property if there is anything to write inside of it. -/
theorem outlineBlank_fuel {fuel : Nat} {inside : List BlankNode} (hnodup : inside.Nodup)
    (hinside : ∀ b ∈ inside, ∃ t ∈ g.triples, t.subject = .blank b)
    (hfuel : g.size < fuel + inside.length) (b : BlankNode) :
    g.outlineBlank (fuel + 1) inside b = g.outlineBlank fuel inside b := by
  induction fuel generalizing inside b with
  | zero =>
    have hlength := length_le_size hnodup hinside
    omega
  | succ fuel ih =>
    rw [outlineBlank, outlineBlank]
    split
    · rfl
    · next hb =>
      have hentries : ∀ e ∈ g.propertiesOf (.blank b),
          e.2.outline (g.outlineBlank (fuel + 1) (b :: inside)) =
            e.2.outline (g.outlineBlank fuel (b :: inside)) := by
        intro e he
        have hproperty := mem_propertiesOf_iff.1 he
        refine congrArg (Term.outline · e.2) (funext (ih (hnodup.cons hb) ?_ ?_))
        · exact List.forall_mem_cons.2 ⟨⟨_, hproperty, rfl⟩, hinside⟩
        · rw [List.length_cons]
          omega
      simp only [List.map_congr_left fun e he =>
        congrArg (bracketed e.1 ++ " " ++ ·) (hentries e he)]

end Graph

/-! ## Renamings -/

namespace IsRenaming

variable {σ : BlankNode → BlankNode} {g h : Graph}

/-- Subjects with blank nodes of the graph stay apart. -/
private theorem rename_subject_inj (hσ : IsRenaming σ g.toSet h.toSet) {s s' : Subject}
    (hs : s.Within (blankNodes g.toSet)) (hs' : s'.Within (blankNodes g.toSet)) :
    s.rename σ = s'.rename σ ↔ s = s' := by
  refine ⟨fun heq => ?_, congrArg _⟩
  cases s with
  | iri i => cases s' <;> cases heq; rfl
  | blank b =>
    cases s' with
    | iri i => cases heq
    | blank b' => exact congrArg _ (hσ.injOn (hs b rfl) (hs' b' rfl) (Subject.blank.inj heq))

/-- Terms with blank nodes of the graph stay apart. -/
private theorem rename_term_inj (hσ : IsRenaming σ g.toSet h.toSet) {o o' : Term}
    (ho : o.Within (blankNodes g.toSet)) (ho' : o'.Within (blankNodes g.toSet)) :
    o.rename σ = o'.rename σ ↔ o = o' := by
  refine ⟨fun heq => ?_, congrArg _⟩
  cases o with
  | iri i => cases o' <;> cases heq; rfl
  | literal l => cases o' <;> cases heq; rfl
  | blank b =>
    cases o' with
    | iri i => cases heq
    | literal l => cases heq
    | blank b' => exact congrArg _ (hσ.injOn (ho b rfl) (ho' b' rfl) (Term.blank.inj heq))

/-- **Listings.** The triples of the other graph are those of the first one with other names, in
some order. -/
theorem triples_perm (hσ : IsRenaming σ g.toSet h.toSet) :
    h.triples.Perm (g.triples.map (Triple.rename σ)) := by
  have hnodup : (g.triples.map (Triple.rename σ)).Nodup := by
    refine g.nodup.map_on fun t ht u hu heq => ?_
    obtain ⟨s, p, o⟩ := t
    obtain ⟨s', p', o'⟩ := u
    have hs := (hσ.rename_subject_inj (Graph.subject_within ht) (Graph.subject_within hu)).1
      (congrArg Triple.subject heq)
    have ho := (hσ.rename_term_inj (Graph.object_within ht) (Graph.object_within hu)).1
      (congrArg Triple.object heq)
    have hp : p = p' := congrArg Triple.predicate heq
    exact Triple.mk.injEq .. ▸ ⟨hs, hp, ho⟩
  refine (List.perm_ext_iff_of_nodup h.nodup hnodup).2 fun t => ?_
  rw [← Graph.mem_toSet, ← hσ.image, List.mem_map]
  rfl

/-- The graphs have equally many triples. -/
theorem size_eq (hσ : IsRenaming σ g.toSet h.toSet) : h.size = g.size := by
  rw [Graph.size, hσ.triples_perm.length_eq, List.length_map, Graph.size]

/-- The properties of a subject are the former ones with other names. -/
private theorem propertiesOf_perm (hσ : IsRenaming σ g.toSet h.toSet) {s : Subject}
    (hs : s.Within (blankNodes g.toSet)) :
    (h.propertiesOf (s.rename σ)).Perm
      ((g.propertiesOf s).map fun e => (e.1, e.2.rename σ)) := by
  refine (hσ.triples_perm.filterMap _).trans (.of_eq ?_)
  rw [Graph.propertiesOf, List.filterMap_map, List.map_filterMap]
  refine List.filterMap_congr fun t ht => ?_
  have hsubject := hσ.rename_subject_inj (Graph.subject_within ht) hs
  simp only [Function.comp_apply, Triple.rename, hsubject]
  split <;> rfl

/-- **Blank nodes** are written alike.

**Proof sketch.** Induction on the fuel. A renamed node stands inside of itself just if the node
did, and its properties are the former ones in some order, which does not matter as their texts are
sorted. -/
theorem outlineBlank_rename (hσ : IsRenaming σ g.toSet h.toSet) {fuel : Nat}
    {inside : List BlankNode} (hinside : ∀ b ∈ inside, b ∈ blankNodes g.toSet) {b : BlankNode}
    (hb : b ∈ blankNodes g.toSet) :
    h.outlineBlank fuel (inside.map σ) (σ b) = g.outlineBlank fuel inside b := by
  induction fuel generalizing inside b with
  | zero => rfl
  | succ fuel ih =>
    have hmem : σ b ∈ inside.map σ ↔ b ∈ inside := by
      refine ⟨fun hmem => ?_, List.mem_map_of_mem⟩
      obtain ⟨c, hc, heq⟩ := List.mem_map.1 hmem
      exact hσ.injOn (hinside c hc) hb heq ▸ hc
    have hb' : (Subject.blank b).Within (blankNodes g.toSet) := by
      rintro c ⟨⟩
      exact hb
    have hentries : ∀ e ∈ g.propertiesOf (.blank b),
        (e.2.rename σ).outline (h.outlineBlank fuel (σ b :: inside.map σ)) =
          e.2.outline (g.outlineBlank fuel (b :: inside)) := by
      intro e he
      have hproperty := Graph.mem_propertiesOf_iff.1 he
      exact Term.outline_rename fun c hobject =>
        ih (List.forall_mem_cons.2 ⟨hb, hinside⟩) (Graph.object_within hproperty c hobject)
    have hperm := (hσ.propertiesOf_perm hb').map fun e =>
      bracketed e.1 ++ " " ++ e.2.outline (h.outlineBlank fuel (σ b :: inside.map σ))
    rw [List.map_map] at hperm
    rw [Graph.outlineBlank, Graph.outlineBlank]
    simp only [hmem]
    split
    · rfl
    · refine congrArg (fun texts => "[" ++ "; ".intercalate texts ++ "]") ?_
      refine (sortTexts_eq_of_perm hperm).trans (congrArg sortTexts ?_)
      exact List.map_congr_left fun e he =>
        congrArg (bracketed e.1 ++ " " ++ ·) (hentries e he)

/-- Terms are written alike. -/
theorem outlineTerm_rename (hσ : IsRenaming σ g.toSet h.toSet) {o : Term}
    (ho : o.Within (blankNodes g.toSet)) : h.outlineTerm (o.rename σ) = g.outlineTerm o := by
  rw [Graph.outlineTerm, Graph.outlineTerm, hσ.size_eq]
  exact Term.outline_rename fun b hb =>
    hσ.outlineBlank_rename (List.forall_mem_nil _) (ho b hb)

/-- The lines of IRIs are the same in some order. -/
private theorem iriLines_perm (hσ : IsRenaming σ g.toSet h.toSet) : h.iriLines.Perm g.iriLines := by
  refine (hσ.triples_perm.filterMap _).trans (.of_eq ?_)
  rw [Graph.iriLines, List.filterMap_map]
  refine List.filterMap_congr fun t ht => ?_
  have hobject := hσ.outlineTerm_rename (Graph.object_within ht)
  rw [Function.comp_apply, Triple.rename]
  cases t.subject with
  | iri i => simp only [Subject.rename, hobject]
  | blank b => rfl

/-- The roots are the former ones with other names, in some order. -/
private theorem rootBlanks_perm (hσ : IsRenaming σ g.toSet h.toSet) :
    h.rootBlanks.Perm (g.rootBlanks.map σ) := by
  have hroot : ∀ b ∈ g.rootBlanks, b ∈ blankNodes g.toSet := fun b hb =>
    let ⟨⟨t, ht, hs⟩, _⟩ := Graph.mem_rootBlanks_iff.1 hb
    Graph.subject_within ht b hs
  have hnodup : (g.rootBlanks.map σ).Nodup :=
    g.nodup_rootBlanks.map_on fun b hb c hc => hσ.injOn (hroot b hb) (hroot c hc)
  refine (List.perm_ext_iff_of_nodup h.nodup_rootBlanks hnodup).2 fun c => ?_
  have hsubjects : (∃ t ∈ h.triples, t.subject = .blank c) ↔
      ∃ t ∈ g.triples, t.subject.rename σ = .blank c := by
    simp [hσ.triples_perm.mem_iff, Triple.rename]
  have hobjects : (∀ t ∈ h.triples, t.object ≠ .blank c) ↔
      ∀ t ∈ g.triples, t.object.rename σ ≠ .blank c := by
    simp [hσ.triples_perm.mem_iff, Triple.rename]
  rw [Graph.mem_rootBlanks_iff, hsubjects, hobjects, List.mem_map]
  constructor
  · rintro ⟨⟨t, ht, hs⟩, hvalues⟩
    cases hsubject : t.subject with
    | iri i => cases hsubject ▸ hs
    | blank b =>
      cases hsubject ▸ hs
      refine ⟨b, Graph.mem_rootBlanks_iff.2 ⟨⟨t, ht, hsubject⟩, fun u hu hobject => ?_⟩, rfl⟩
      exact hvalues u hu (congrArg (Term.rename σ) hobject)
  · rintro ⟨b, hb, rfl⟩
    obtain ⟨⟨t, ht, hs⟩, hvalues⟩ := Graph.mem_rootBlanks_iff.1 hb
    have hblank : (Term.blank b).Within (blankNodes g.toSet) := by
      rintro c ⟨⟩
      exact hroot b hb
    refine ⟨⟨t, ht, congrArg (Subject.rename σ) hs⟩, fun u hu hobject => hvalues u hu ?_⟩
    exact (hσ.rename_term_inj (Graph.object_within hu) hblank).1 hobject

/-- **Outlines** are the same. -/
theorem outline_eq (hσ : IsRenaming σ g.toSet h.toSet) : h.outline = g.outline := by
  refine sortTexts_eq_of_perm (hσ.iriLines_perm.append ?_)
  refine (hσ.rootBlanks_perm.map _).trans (.of_eq ?_)
  rw [List.map_map]
  refine List.map_congr_left fun b hb => ?_
  obtain ⟨⟨t, ht, hs⟩, -⟩ := Graph.mem_rootBlanks_iff.1 hb
  refine hσ.outlineTerm_rename (o := .blank b) ?_
  rintro c ⟨⟩
  exact Graph.subject_within ht b hs

end IsRenaming

/-- **Names of blank nodes** do not matter, and neither does the order of the triples. -/
theorem SameUpToRenaming.sameOutline {g h : Graph} (hgh : SameUpToRenaming g.toSet h.toSet) :
    g.SameOutline h :=
  let ⟨_, hσ⟩ := hgh
  ⟨hσ.size_eq.symm, hσ.outline_eq.symm⟩

end Rdf

/-- **Facts in another order** have graphs with one outline. -/
theorem Statements.sameOutline_of_rearranged {s t : Statements} (h : s.Rearranged t) :
    s.toShapes.SameOutline t.toShapes :=
  (toShapes_rearranged h).sameOutline

end ShapeSchema
