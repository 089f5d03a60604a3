import ShapeSchema.Proofs.Copies
import ShapeSchema.Proofs.Edges

/-!
# Which property counts

A relationship may find a property of one name in three places: among its own properties, of which
the last one with the name is meant, among the properties of a subject that is called like the
relationship, and among the properties of its subject whose names begin with that of the
relationship. The latter two are looked at only if that is asked for.

The places are put into an order, and the edge of the relationship has the constraint of the first
place that offers a property of the name. What the order decides is which property counts, but not
which names there are.

## Main definitions

* `ShapeSchema.PropertySource`, `ShapeSchema.Precedence.sources` — the places and their order.
* `ShapeSchema.RelationFact.Offers` — what a place offers under a name.
* `ShapeSchema.Schema.Edge.FollowsPrecedence` — an edge with the properties that count.

## Main results

* `ShapeSchema.RelationFact.Offers.unique` — a place offers one property under a name.
* `ShapeSchema.RelationFact.get?_constraints_eq_findSome?` — the places are gone through in order.
* `ShapeSchema.Schema.edges_follow_precedence` — which properties count.
-/

namespace ShapeSchema

/-- Lists whose items belong to the items of a third list belong to each other. -/
private theorem forall₂_of_common {α β γ : Type} {R : α → β → Prop} {S : α → γ → Prop}
    {T : β → γ → Prop}
    {l : List α} {m : List β} {n : List γ} (hm : List.Forall₂ R l m) (hn : List.Forall₂ S l n)
    (h : ∀ a b c, R a b → S a c → T b c) : List.Forall₂ T m n := by
  induction hm generalizing n with
  | nil =>
    cases hn
    exact .nil
  | cons hb _ ih =>
    cases hn with
    | cons hc hrest => exact .cons (h _ _ _ hb hc) (ih hrest)

/-! ## Places -/

/-- The places where a relationship finds its properties. -/
inductive PropertySource where
  /-- The relationship states the property itself. -/
  | nested
  /-- A subject that is called like the relationship has the property. -/
  | sameSubject
  /-- The subject of the relationship has the property, under a name that begins with that of the
  relationship. -/
  | compoundName
  deriving DecidableEq

/-- The places, those that count more first. -/
def Precedence.sources : Precedence → List PropertySource
  | nested => [.nested, .sameSubject, .compoundName]
  | flattened => [.compoundName, .sameSubject, .nested]

/-- No place is left out. -/
theorem Precedence.mem_sources (precedence : Precedence) (source : PropertySource) :
    source ∈ precedence.sources := by
  cases precedence <;> cases source <;> decide

namespace RelationFact

variable {options : SchemaOptions} {s : Statements} {f : RelationFact} {name : String}

/-- A place offers a relationship a property under a name. Copied properties are offered nowhere. -/
inductive Offers (options : SchemaOptions) (s : Statements) (f : RelationFact) (name : String) :
    PropertySource → Property → Prop
  /-- The property is the last one of the name among those that the relationship states. -/
  | nested {before after : List Property} {p : Property}
      (hproperties : f.properties = before ++ p :: after) (hname : p.name = name)
      (hlast : ∀ q ∈ after, q.name ≠ name) : Offers options s f name .nested p
  /-- The property belongs to a subject that is called like the relationship. -/
  | sameSubject {p : PropertyFact} (hasked : options.sameSubject = true)
      (hp : p ∈ s.propertyFacts) (hown : p.copyOf = none) (hsubject : p.subject = f.name)
      (hname : p.name = name) : Offers options s f name .sameSubject p.property
  /-- The property belongs to the subject of the relationship, whose name stands before the name. -/
  | compoundName {p : PropertyFact} (hasked : options.compoundName = true)
      (hp : p ∈ s.propertyFacts) (hown : p.copyOf = none) (hsubject : p.subject = f.subject)
      (hname : p.name = f.name ++ "_" ++ name) (hne : name ≠ "") :
      Offers options s f name .compoundName p.property

/-! ## What is offered -/

/-- The properties of subjects themselves are the property facts that are no copies. -/
theorem mem_ownPropertyFacts_iff {p : PropertyFact} :
    p ∈ s.ownPropertyFacts ↔ p ∈ s.propertyFacts ∧ p.copyOf = none := by
  rw [Statements.mem_ownPropertyFacts_iff, Statements.mem_propertyFacts_iff]

/-- A property of a subject itself goes by its own name. -/
private theorem name_of_copyOf_eq_none {p : PropertyFact} (h : p.copyOf = none) :
    p.name = p.property.name := by
  rw [PropertyFact.name, h]

/-- **Uniqueness.** A place offers at most one property under a name. -/
theorem Offers.unique {source : PropertySource} {p q : Property}
    (hp : f.Offers options s name source p) (hq : f.Offers options s name source q) : p = q := by
  have hown : ∀ {a b : PropertyFact}, a ∈ s.propertyFacts → a.copyOf = none →
      b ∈ s.propertyFacts → b.copyOf = none → a.subject = b.subject → a.name = b.name →
      a.property = b.property := by
    intro a b ha haown hb hbown hsubject hname
    rw [name_of_copyOf_eq_none haown, name_of_copyOf_eq_none hbown] at hname
    exact congrArg PropertyFact.property (Statements.eq_of_ownName_eq
      (mem_ownPropertyFacts_iff.2 ⟨ha, haown⟩) (mem_ownPropertyFacts_iff.2 ⟨hb, hbown⟩)
      hsubject hname)
  cases hp with
  | nested hproperties hname hlast =>
    cases hq with
    | nested hproperties' hname' hlast' =>
      -- read from the end, both are the first property of the name
      have hfind : ∀ {before after : List Property} {p : Property},
          f.properties = before ++ p :: after → p.name = name → (∀ q ∈ after, q.name ≠ name) →
          f.properties.reverse.find? (·.name = name) = some p := by
        intro before after p h hname hlast
        rw [List.find?_eq_some_iff_append]
        refine ⟨decide_eq_true hname, after.reverse, before.reverse, by simp [h], ?_⟩
        simpa using hlast
      exact Option.some.inj ((hfind hproperties hname hlast).symm.trans
        (hfind hproperties' hname' hlast'))
  | sameSubject _ hp hpown hsubject hname =>
    cases hq with
    | sameSubject _ hq hqown hsubject' hname' =>
      exact hown hp hpown hq hqown (hsubject.trans hsubject'.symm) (hname.trans hname'.symm)
  | compoundName _ hp hpown hsubject hname _ =>
    cases hq with
    | compoundName _ hq hqown hsubject' hname' _ =>
      exact hown hp hpown hq hqown (hsubject.trans hsubject'.symm) (hname.trans hname'.symm)

/-- The constraint that is found in a place under a name. -/
def lookup (options : SchemaOptions) (s : Statements) (f : RelationFact) (name : String) :
    PropertySource → Option Constraint
  | .nested => (Dict.ofList f.nestedEntries).get? name
  | .sameSubject =>
    List.lookup name (if options.sameSubject then f.sameSubjectEntries s else [])
  | .compoundName =>
    List.lookup name (if options.compoundName then f.compoundEntries s else [])

/-- Of the properties that a relationship states itself, the last one under a name is found. -/
theorem lookup_nested_eq_some_iff {c : Constraint} :
    f.lookup options s name .nested = some c ↔
      ∃ p, f.Offers options s name .nested p ∧ c = p.constraint := by
  rw [lookup, Dict.get?_ofList, List.lookup_eq_some_iff]
  simp only [bne_iff_ne, ne_comm (a := name)]
  constructor
  · rintro ⟨after, before, hentries, hlast⟩
    rw [List.reverse_eq_iff, List.reverse_append, List.reverse_cons, List.append_assoc,
      nestedEntries] at hentries
    obtain ⟨front, rest, hproperties, -, hrest⟩ := List.map_eq_append_iff.1 hentries
    obtain ⟨p, back, rfl, hp, hback⟩ := List.map_eq_cons_iff.1 hrest
    simp only [Prod.mk.injEq] at hp
    obtain ⟨hname, rfl⟩ := hp
    refine ⟨p, .nested hproperties hname fun q hq => ?_, rfl⟩
    have hmem : (q.name, q.constraint) ∈ after.reverse := by
      rw [show after.reverse = back.map fun p => (p.name, p.constraint) from hback.symm]
      exact List.mem_map_of_mem hq
    exact hlast _ (List.mem_reverse.1 hmem)
  · rintro ⟨_, ⟨hproperties, rfl, hlast⟩, rfl⟩
    rw [nestedEntries, hproperties]
    refine ⟨_, _, by rw [List.map_append, List.reverse_append, List.map_cons, List.reverse_cons,
      List.append_assoc]; rfl, ?_⟩
    simpa using hlast

/-- What is found among the properties of subjects that are called like the relationship. -/
theorem lookup_sameSubject_eq_some_iff {c : Constraint} :
    f.lookup options s name .sameSubject = some c ↔
      ∃ p, f.Offers options s name .sameSubject p ∧ c = p.constraint := by
  rw [lookup]
  cases hasked : options.sameSubject with
  | false =>
    constructor
    · nofun
    · rintro ⟨_, hoffers, -⟩
      cases hoffers
      simp_all
  | true =>
    rw [if_pos rfl, sameSubjectEntries_eq, Dict.lookup_eq_some_iff (s.nodup_entriesOf _),
      Statements.mem_entriesOf_iff]
    constructor
    · rintro ⟨p, hp, hsubject, heq⟩
      obtain ⟨hp, hown⟩ := mem_ownPropertyFacts_iff.1 hp
      obtain ⟨rfl, rfl⟩ := Prod.mk.inj heq
      exact ⟨_, .sameSubject hasked hp hown hsubject (name_of_copyOf_eq_none hown), rfl⟩
    · rintro ⟨_, hoffers, rfl⟩
      cases hoffers with
      | sameSubject _ hp hown hsubject hname =>
        rw [name_of_copyOf_eq_none hown] at hname
        exact ⟨_, mem_ownPropertyFacts_iff.2 ⟨hp, hown⟩, hsubject, by rw [hname]⟩

/-- What is found among the properties of its subject. -/
theorem lookup_compoundName_eq_some_iff {c : Constraint} :
    f.lookup options s name .compoundName = some c ↔
      ∃ p, f.Offers options s name .compoundName p ∧ c = p.constraint := by
  rw [lookup]
  cases hasked : options.compoundName with
  | false =>
    constructor
    · nofun
    · rintro ⟨_, hoffers, -⟩
      cases hoffers
      simp_all
  | true =>
    rw [if_pos rfl, Dict.lookup_eq_some_iff (f.nodup_compoundEntries s), compoundEntries_eq,
      List.mem_filterMap]
    constructor
    · rintro ⟨entry, hentry, hcompound⟩
      obtain ⟨p, hp, hsubject, rfl⟩ := Statements.mem_entriesOf_iff.1 hentry
      obtain ⟨hp, hown⟩ := mem_ownPropertyFacts_iff.1 hp
      obtain ⟨rest, hbehind, heq⟩ := Option.map_eq_some_iff.1 hcompound
      obtain ⟨rfl, rfl⟩ := Prod.mk.inj heq
      obtain ⟨hne, hname⟩ := behindName?_eq_some_iff.1 hbehind
      exact ⟨_, .compoundName hasked hp hown hsubject
        ((name_of_copyOf_eq_none hown).trans hname) hne, rfl⟩
    · rintro ⟨_, hoffers, rfl⟩
      cases hoffers with
      | compoundName _ hp hown hsubject hname hne =>
        rw [name_of_copyOf_eq_none hown] at hname
        refine ⟨_, Statements.mem_entriesOf_iff.2
          ⟨_, mem_ownPropertyFacts_iff.2 ⟨hp, hown⟩, hsubject, rfl⟩, ?_⟩
        rw [compound?, behindName?_eq_some_iff.2 ⟨hne, hname⟩, Option.map_some]

/-- What is found in a place is what it offers. -/
theorem lookup_eq_some_iff {source : PropertySource} {c : Constraint} :
    f.lookup options s name source = some c ↔
      ∃ p, f.Offers options s name source p ∧ c = p.constraint := by
  cases source with
  | nested => exact lookup_nested_eq_some_iff
  | sameSubject => exact lookup_sameSubject_eq_some_iff
  | compoundName => exact lookup_compoundName_eq_some_iff

/-- Nothing is found in a place that offers nothing. -/
theorem lookup_eq_none_iff {source : PropertySource} :
    f.lookup options s name source = none ↔ ∀ p, ¬ f.Offers options s name source p := by
  rw [Option.eq_none_iff_forall_ne_some]
  constructor
  · intro h p hp
    exact h p.constraint (lookup_eq_some_iff.2 ⟨p, hp, rfl⟩)
  · intro h c hc
    obtain ⟨p, hp, -⟩ := lookup_eq_some_iff.1 hc
    exact h p hp

/-- **Places in order.** The constraint under a name is that of the first place where there is one.

**Proof sketch.** What is taken up from subjects is listed place by place. Within one place names
are distinct, so the list may be read from either end; turning all of it round turns the order of
the places round. -/
theorem get?_constraints_eq_findSome? (options : SchemaOptions) (s : Statements)
    (f : RelationFact) (name : String) :
    (f.constraints options s).get? name =
      options.precedence.sources.findSome? (f.lookup options s name) := by
  have hreverse : ∀ (b : Bool) {l : List (String × Constraint)}, (l.map Prod.fst).Nodup →
      List.lookup name (if b then l else []).reverse =
        List.lookup name (if b then l else []) := by
    intro b l hl
    cases b with
    | false => rfl
    | true => exact Dict.lookup_reverse hl name
  have hsame := hreverse options.sameSubject
    (l := f.sameSubjectEntries s) (s.nodup_entriesOf f.name)
  have hcompound := hreverse options.compoundName (f.nodup_compoundEntries s)
  rw [get?_constraints, takenEntries, List.reverse_append, List.lookup_append,
    List.lookup_append, hsame, hcompound]
  have hplaces : ∀ (a b c : PropertySource) (find : PropertySource → Option Constraint),
      [a, b, c].findSome? find = (find a).or ((find b).or (find c)) := by
    intro a b c find
    cases ha : find a <;> cases hb : find b <;> cases hc : find c <;>
      simp [ha, hb, hc]
  cases options.precedence with
  | nested => rw [Precedence.sources, hplaces, lookup, lookup, lookup]
  | flattened => rw [Precedence.sources, hplaces, lookup, lookup, lookup, Option.or_assoc]

end RelationFact

/-! ## Edges -/

/-- An edge has the properties of its relationship that count. -/
structure Schema.Edge.FollowsPrecedence (options : SchemaOptions) (s : Statements)
    (f : RelationFact) (e : Edge) : Prop where
  /-- There is a constraint under a name just if some place offers a property of the name. -/
  names : ∀ name, name ∈ e.constraints.keys ↔ ∃ source p, f.Offers options s name source p
  /-- A property counts if no place before its own offers one of its name. Its datatype and its
  cardinality are those of the constraint. -/
  counts : ∀ name before source after p,
    options.precedence.sources = before ++ source :: after →
    (∀ earlier ∈ before, ∀ q, ¬ f.Offers options s name earlier q) →
    f.Offers options s name source p →
    e.constraints.get? name = some ⟨.ofIri p.datatype, p.cardinality⟩

/-- The same facts without those about copied properties. -/
def Statements.withoutCopies (s : Statements) : Statements :=
  { s with facts := ⟨s.shapeFacts, s.nodup_shapeIds⟩ }

/-- Leaving copies out leaves out no other facts. -/
theorem Statements.shapeFacts_withoutCopies (s : Statements) :
    s.withoutCopies.shapeFacts = s.shapeFacts :=
  List.filter_eq_self.2 fun _ hf => (List.mem_filter.1 hf).2

namespace Schema

variable {options : SchemaOptions} {s : Statements} {f : RelationFact} {e : Edge}

/-- The edge of a relationship has the properties that count. -/
private theorem followsPrecedence_of_givesEdge (h : GivesEdge options s f e) :
    e.FollowsPrecedence options s f := by
  obtain ⟨n, rfl⟩ := h
  constructor
  · intro name
    rw [Dict.mem_keys_iff, constraints_edge, RelationFact.get?_constraints_eq_findSome? options s f,
      Option.isSome_iff_exists]
    constructor
    · rintro ⟨c, hc⟩
      obtain ⟨source, -, hlookup⟩ := List.exists_of_findSome?_eq_some hc
      obtain ⟨p, hp, -⟩ := RelationFact.lookup_eq_some_iff.1 hlookup
      exact ⟨source, p, hp⟩
    · rintro ⟨source, p, hp⟩
      rw [← Option.isSome_iff_exists, List.findSome?_isSome_iff]
      refine ⟨source, options.precedence.mem_sources source, ?_⟩
      rw [RelationFact.lookup_eq_some_iff.2 ⟨p, hp, rfl⟩, Option.isSome_some]
  · intro name before source after p hsources hbefore hp
    rw [constraints_edge, RelationFact.get?_constraints_eq_findSome? options s f,
      List.findSome?_eq_some_iff]
    exact ⟨before, source, after, hsources, RelationFact.lookup_eq_some_iff.2 ⟨p, hp, rfl⟩,
      fun earlier hearlier => RelationFact.lookup_eq_none_iff.2 (hbefore earlier hearlier)⟩

/-- What is offered does not depend on which property counts. -/
theorem offers_precedence_iff {precedence : Precedence} {name : String} {source : PropertySource}
    {p : Property} :
    f.Offers { options with precedence := precedence } s name source p ↔
      f.Offers options s name source p := by
  constructor <;> rintro (_ | _ | _) <;> constructor <;> assumption

/-- **Which property counts.** Take any statements that were built by insertions, and any options.

* A place offers a relationship at most one property under a name.
* The edges of the schema represent the relationships between subjects that stand for classes, in
  order. An edge has a constraint under a name just if one of the three places offers a property of
  the name, and it is the constraint of the first place that does.
* So the names are the same whichever property counts.
* Copied properties contribute nothing: without them, the schema is the same. -/
theorem edges_follow_precedence (options : SchemaOptions) (name space : String)
    (facts : List Fact) :
    let s := Statements.ofList name space facts
    (∀ f name source p q, RelationFact.Offers options s f name source p →
        f.Offers options s name source q → p = q) ∧
      List.Forall₂
        (fun f e => Edge.Represents options e f ∧ Edge.FollowsPrecedence options s f e)
        s.keptFacts (ofStatements options s).edges.entries ∧
      (∀ precedence, List.Forall₂
        (fun d e : Edge => ∀ name, name ∈ d.constraints.keys ↔ name ∈ e.constraints.keys)
        (ofStatements options s).edges.entries
        (ofStatements { options with precedence := precedence } s).edges.entries) ∧
      ofStatements options s.withoutCopies = ofStatements options s := by
  intro s
  have hedges : ∀ options : SchemaOptions, List.Forall₂
      (fun f e => Edge.Represents options e f ∧ Edge.FollowsPrecedence options s f e)
      s.keptFacts (ofStatements options s).edges.entries := fun options =>
    (forall₂_edges_ofStatements options s).imp fun _ _ h =>
      ⟨represents_of_givesEdge h, followsPrecedence_of_givesEdge h⟩
  refine ⟨fun f name source p q => RelationFact.Offers.unique, hedges options,
    fun precedence => ?_, ?_⟩
  · -- both lists of edges belong to the same relationships
    refine forall₂_of_common (hedges options) (hedges { options with precedence := precedence }) ?_
    intro f d e hd he name
    rw [hd.2.names, he.2.names]
    simp only [offers_precedence_iff]
  · exact ofStatements_eq_of_shapeFacts_eq options rfl s.shapeFacts_withoutCopies

end Schema

end ShapeSchema
