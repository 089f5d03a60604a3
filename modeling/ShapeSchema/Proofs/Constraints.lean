import ShapeSchema.Proofs.Dict
import ShapeSchema.Proofs.Statements
import ShapeSchema.Schema.OfStatements

/-!
# Constraints of relationships

The edge of a relationship has the constraints of its own properties and of those that it takes up
from subjects. What is found under a name is the first or the last of them, depending on what counts
more. Taking up the same properties again therefore changes nothing.

What a relationship takes up depends on the statements only through the constraints of each
subject, whose names are distinct; so their order makes no difference.

## Main definitions

* `ShapeSchema.Statements.entriesOf` — the constraints of the properties of a subject.
* `ShapeSchema.Statements.SameEntries` — statements that give all subjects the same constraints.

## Main results

* `ShapeSchema.RelationFact.get?_constraints` — what is found under a name.
* `ShapeSchema.RelationFact.constraints_congr` — equal parts make equal constraints.
* `ShapeSchema.RelationFact.constraints_again` — taking up properties twice is taking them up once.
-/

namespace ShapeSchema

/-! ## Constraints of subjects -/

namespace Statements

variable {s t : Statements}

/-- The constraints of the properties of a subject itself, by the names of the properties. -/
def entriesOf (s : Statements) (subject : String) : List (String × Constraint) :=
  (s.ownPropertyFacts.filter (·.subject = subject)).map fun p =>
    (p.property.name, p.property.constraint)

/-- Every subject has the same constraints in both, in some order. -/
def SameEntries (s t : Statements) : Prop :=
  ∀ subject, (s.entriesOf subject).Perm (t.entriesOf subject)

/-- The constraints of a subject are those of its own properties. -/
theorem mem_entriesOf_iff {subject : String} {entry : String × Constraint} :
    entry ∈ s.entriesOf subject ↔ ∃ p ∈ s.ownPropertyFacts, p.subject = subject ∧
      entry = (p.property.name, p.property.constraint) := by
  simp only [entriesOf, List.mem_map, List.mem_filter, decide_eq_true_eq]
  constructor
  · rintro ⟨p, ⟨hp, hsubject⟩, rfl⟩
    exact ⟨p, hp, hsubject, rfl⟩
  · rintro ⟨p, hp, hsubject, rfl⟩
    exact ⟨p, ⟨hp, hsubject⟩, rfl⟩

/-- The constraints of a subject have distinct names. -/
theorem nodup_entriesOf (s : Statements) (subject : String) :
    ((s.entriesOf subject).map Prod.fst).Nodup := by
  rw [entriesOf, List.map_map]
  exact s.nodup_ownNames subject

/-- Statements that say the same give all subjects the same constraints. -/
theorem sameEntries_of_content_perm (h : s.content.Perm t.content) : s.SameEntries t := by
  intro subject
  exact ((ownPropertyFacts_perm h).filter _).map _

end Statements

namespace RelationFact

/-! ## Names behind a relationship -/

/-- A name is that of a relationship, an underscore and what remains of it. -/
theorem behindName?_eq_some_iff {relationship name rest : String} :
    behindName? relationship name = some rest ↔
      rest ≠ "" ∧ name = relationship ++ "_" ++ rest := by
  unfold behindName?
  constructor
  · intro h
    split at h
    · cases h
    · cases h
    · next chars hne hstrip =>
      obtain rfl := Option.some.inj h
      refine ⟨fun hempty => hne (String.ofList_eq_empty_iff.1 hempty), ?_⟩
      rw [← String.toList_inj, ← List.append_eq_of_isPrefixOf?_eq_some hstrip,
        String.toList_append (s := relationship ++ "_"), String.toList_ofList]
  · rintro ⟨hne, rfl⟩
    rw [String.toList_append (s := relationship ++ "_"),
      List.isPrefixOf?_eq_some_iff_append_eq.2 rfl]
    cases hrest : rest.toList with
    | nil => exact absurd (String.toList_eq_nil_iff.1 hrest) hne
    | cons c chars =>
      show some (String.ofList (c :: chars)) = some rest
      rw [← hrest, String.ofList_toList]

/-- What remains of a name determines the name. -/
private theorem eq_of_behindName?_eq {relationship n₁ n₂ rest : String}
    (h₁ : behindName? relationship n₁ = some rest) (h₂ : behindName? relationship n₂ = some rest) :
    n₁ = n₂ := by
  rw [(behindName?_eq_some_iff.1 h₁).2, (behindName?_eq_some_iff.1 h₂).2]

/-! ## Constraints that are taken up -/

variable {options : SchemaOptions} {s t : Statements} {f g : RelationFact}

/-- The constraint of a property whose name begins with that of a relationship. -/
def compound? (f : RelationFact) (entry : String × Constraint) :
    Option (String × Constraint) :=
  (behindName? f.name entry.1).map (·, entry.2)

/-- What is taken up from subjects that are called like the relationship are their constraints. -/
theorem sameSubjectEntries_eq (s : Statements) (f : RelationFact) :
    f.sameSubjectEntries s = s.entriesOf f.name := rfl

/-- What is taken up from the subject of a relationship, told from the constraints of the subject.
-/
theorem compoundEntries_eq (s : Statements) (f : RelationFact) :
    f.compoundEntries s = (s.entriesOf f.subject).filterMap f.compound? := by
  rw [compoundEntries, Statements.entriesOf, List.filterMap_map]
  refine List.filterMap_congr fun p _ => ?_
  rw [Function.comp_apply, compound?]

/-- What is taken up from the subject of a relationship has distinct names. -/
theorem nodup_compoundEntries (s : Statements) (f : RelationFact) :
    ((f.compoundEntries s).map Prod.fst).Nodup := by
  rw [compoundEntries_eq, List.map_filterMap]
  have hnames := s.nodup_entriesOf f.subject
  rw [List.Nodup, List.pairwise_map] at hnames
  refine List.Pairwise.filterMap _ ?_ hnames
  intro a b hab n ha m hb hnm
  simp only [compound?, Option.map_map, Option.map_eq_some_iff, Function.comp_apply] at ha hb
  obtain ⟨n, ha, rfl⟩ := ha
  obtain ⟨m, hb, rfl⟩ := hb
  exact hab (eq_of_behindName?_eq ha (hnm ▸ hb))

/-- What may be taken up is found in both directions, whatever its order. -/
private theorem lookup_optional (b : Bool) {l m : List (String × Constraint)} (hp : l.Perm m)
    (h : (l.map Prod.fst).Nodup) (name : String) :
    List.lookup name (if b then l else []) = List.lookup name (if b then m else []) ∧
      List.lookup name (if b then l else []).reverse =
        List.lookup name (if b then m else []).reverse := by
  cases b with
  | false => exact ⟨rfl, rfl⟩
  | true =>
    have hm : (m.map Prod.fst).Nodup := (hp.map _).nodup_iff.1 h
    have heq := Dict.lookup_perm hp h name
    refine ⟨heq, ?_⟩
    show List.lookup name l.reverse = List.lookup name m.reverse
    rw [Dict.lookup_reverse h, Dict.lookup_reverse hm, heq]

/-- **Order.** What relationships with one name and one subject take up is the same in both
directions, whatever the order of the properties. -/
private theorem lookup_takenEntries (options : SchemaOptions)
    (hst : s.SameEntries t) (hname : f.name = g.name) (hsubject : f.subject = g.subject)
    (name : String) :
    List.lookup name (f.takenEntries options s) =
        List.lookup name (g.takenEntries options t) ∧
      List.lookup name (f.takenEntries options s).reverse =
        List.lookup name (g.takenEntries options t).reverse := by
  have hsame : (f.sameSubjectEntries s).Perm (g.sameSubjectEntries t) := by
    rw [sameSubjectEntries_eq, sameSubjectEntries_eq, hname]
    exact hst g.name
  have hcompound : (f.compoundEntries s).Perm (g.compoundEntries t) := by
    have hentry : f.compound? = g.compound? := by
      funext entry
      rw [compound?, compound?, hname]
    rw [compoundEntries_eq, compoundEntries_eq, hsubject, hentry]
    exact (hst g.subject).filterMap _
  have hfirst := lookup_optional options.sameSubject hsame (s.nodup_entriesOf f.name) name
  have hsecond :=
    lookup_optional options.compoundName hcompound (f.nodup_compoundEntries s) name
  -- each of the two parts has distinct names, so its order is free; between them it is not
  rw [takenEntries, takenEntries, List.reverse_append, List.reverse_append]
  simp only [List.lookup_append, hfirst, hsecond, and_self]

/-! ## Precedence -/

/-- What is found after constraints were attached: in nested precedence the first one under the
name, and otherwise the last one. -/
private theorem get?_foldl_attach (precedence : Precedence) (d : Dict Constraint)
    (entries : List (String × Constraint)) (name : String) :
    (entries.foldl (attach precedence) d).get? name =
      match precedence with
      | .nested => (d.get? name).or (List.lookup name entries)
      | .flattened => (List.lookup name entries.reverse).or (d.get? name) := by
  cases precedence with
  | flattened => exact Dict.get?_foldl_insert d entries name
  | nested =>
    induction entries generalizing d with
    | nil => simp
    | cons head rest ih =>
      obtain ⟨n, c⟩ := head
      have hattach : (attach .nested d (n, c)).get? name =
          (d.get? name).or (if name = n then some c else none) := by
        unfold attach
        by_cases hn : name = n
        · subst hn
          by_cases hd : d.contains name
          · obtain ⟨value, hvalue⟩ := Option.isSome_iff_exists.1 hd
            simp [hd, hvalue]
          · have hnone : d.get? name = none := Option.not_isSome_iff_eq_none.1 hd
            simp [hd, hnone, Dict.get?_insert]
        · by_cases hd : d.contains n <;> simp [hd, hn, Dict.get?_insert]
      rw [List.foldl_cons, ih]
      simp only [hattach, Option.or_assoc, Dict.lookup_cons]
      by_cases hn : name = n <;> simp [hn]

/-- **Precedence.** The constraint under a name of the edge of a relationship. -/
theorem get?_constraints (options : SchemaOptions) (s : Statements) (f : RelationFact)
    (name : String) :
    (f.constraints options s).get? name =
      match options.precedence with
      | .nested => ((Dict.ofList f.nestedEntries).get? name).or
          (List.lookup name (f.takenEntries options s))
      | .flattened => (List.lookup name (f.takenEntries options s).reverse).or
          ((Dict.ofList f.nestedEntries).get? name) :=
  get?_foldl_attach options.precedence _ _ name

/-- **Equal parts** make equal constraints. -/
theorem constraints_congr (hst : s.SameEntries t) (hname : f.name = g.name)
    (hsubject : f.subject = g.subject)
    (hnested : Dict.ofList f.nestedEntries = Dict.ofList g.nestedEntries) :
    f.constraints options s = g.constraints options t := by
  apply Dict.ext_get?
  intro name
  have htaken := lookup_takenEntries options hst hname hsubject name
  rw [get?_constraints, get?_constraints, hnested, htaken.1, htaken.2]

/-- **Twice is once.** A relationship that states all the constraints of another one's edge itself
and takes up the same properties has an edge with the same constraints. -/
theorem constraints_again (hst : s.SameEntries t) (hname : f.name = g.name)
    (hsubject : f.subject = g.subject)
    (hnested : Dict.ofList g.nestedEntries = f.constraints options s) :
    g.constraints options t = f.constraints options s := by
  apply Dict.ext_get?
  intro name
  have htaken := lookup_takenEntries options hst hname hsubject name
  rw [get?_constraints options t, hnested, ← htaken.1, ← htaken.2, get?_constraints options s]
  cases options.precedence with
  | nested => simp only [Option.or_assoc, Option.or_self]
  | flattened => simp only [← Option.or_assoc, Option.or_self]

end RelationFact

end ShapeSchema
