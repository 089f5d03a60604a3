import ShapeSchema.Proofs.Conformance
import ShapeSchema.Proofs.Store

/-!
# What is reported about values

A node reports just the bounds that some values break. A value that is missing or `null` is no
value, and breaks a lower bound other than zero; this is reported as a property that must be there.
Any other value is counted, and the count may break the lower bound, the upper one, or both of them
if the lower one is greater than the upper one.

The report lists the properties in the order of their names. It is empty just if the cardinality of
every constraint allows the count, where no value counts as none.

## Main definitions

* `ShapeSchema.Store.Node.violations` — the report of a node as it is stored.
* `ShapeSchema.valueCount?` — the count of the value under a name.
* `ShapeSchema.Violation.Kind.Applies` — what is wrong with a count.
* `ShapeSchema.Violation.Precedes` — the order of a report.

## Main results

* `ShapeSchema.Constraint.mem_kindsOf_iff` — what is reported about one property.
* `ShapeSchema.Schema.Node.mem_violations_iff`, `ShapeSchema.Schema.Node.pairwise_violations` — what
  is reported about all of them, and in which order.
* `ShapeSchema.Store.Node.violations_make` — the report of any node.
-/

namespace ShapeSchema

/-- The report of a node as it is stored. The name of a property is the one that is stored with its
constraint. -/
def Store.Node.violations (n : Node) (values : Dict Json) : List Violation :=
  n.constraints.values.flatMap fun c =>
    (c.toConstraint.kindsOf (values.get? c.name)).map fun kind => ⟨n.id, some c.name, kind⟩

/-! ## Counts -/

/-- The count of the value under a name: the number of items of an array, and one for any other
value. A missing value and `null` have none. -/
def valueCount? (values : Dict Json) (name : String) : Option Nat :=
  match values.get? name with
  | none | some .null => none
  | some (.array items) => some items.length
  | some _ => some 1

/-- Values are counted if there is something under the name and it can be counted. -/
private theorem valueCount?_eq (values : Dict Json) (name : String) :
    valueCount? values name = (values.get? name).bind Json.count? := by
  unfold valueCount?
  cases values.get? name with
  | none => rfl
  | some value => cases value <;> rfl

namespace Violation

/-- What is wrong with a count that a cardinality does not allow. -/
inductive Kind.Applies (c : Cardinality) : Option Nat → Kind → Prop where
  /-- There is no value, and there must be one. -/
  | missing (h : 0 < c.min) : Applies c none .missingRequired
  /-- There are fewer values than the lower bound. -/
  | few {count : Nat} (h : count < c.min.toNat) : Applies c (some count) (.tooFew count c.min.toNat)
  /-- There are more values than the upper bound. -/
  | many {count : Nat} {max : Count} (hmax : c.max = some max) (h : max.toNat < count) :
      Applies c (some count) (.tooMany count max.toNat)

/-- There are fewer values than the lower bound. -/
def Kind.IsTooFew (kind : Kind) : Prop := ∃ count min, kind = tooFew count min

/-- There are more values than the upper bound. -/
def Kind.IsTooMany (kind : Kind) : Prop := ∃ count max, kind = tooMany count max

/-- The order of a report: by the names of the properties, and for one property the lower bound
comes before the upper one. -/
def Precedes (v w : Violation) : Prop :=
  ∃ name ∈ v.property, ∃ name' ∈ w.property,
    name < name' ∨ name = name' ∧ v.kind.IsTooFew ∧ w.kind.IsTooMany

end Violation

/-! ## One property -/

namespace Constraint

/-- **One property.** What applies to the count of a value is reported, and nothing else. -/
theorem mem_kindsOf_iff {c : Constraint} {value : Option Json} {kind : Violation.Kind} :
    kind ∈ c.kindsOf value ↔ kind.Applies c.cardinality (value.bind Json.count?) := by
  unfold kindsOf
  cases value.bind Json.count? with
  | none =>
    show kind ∈ (if c.cardinality.required then _ else _) ↔ _
    constructor
    · intro h
      split at h
      · next hrequired =>
        rw [List.mem_singleton.1 h]
        exact .missing (of_decide_eq_true hrequired)
      · cases h
    · rintro ⟨hmin⟩
      have hrequired : c.cardinality.required = true := decide_eq_true hmin
      rw [if_pos hrequired]
      exact List.mem_singleton_self _
  | some count =>
    show kind ∈ _ ++ _ ↔ _
    rw [List.mem_append, List.mem_map]
    constructor
    · rintro (h | ⟨max, h, rfl⟩)
      · split at h
        · next hmin =>
          rw [List.mem_singleton.1 h]
          exact .few hmin
        · cases h
      · rw [List.mem_filter, Option.mem_toList, decide_eq_true_eq] at h
        exact .many h.1 h.2
    · rintro (_ | hmin | ⟨hmax, h⟩)
      · exact .inl (by simp [hmin])
      · exact .inr ⟨_, by simp [hmax, h], rfl⟩

/-- The lower bound is reported before the upper one. -/
private theorem pairwise_kindsOf (c : Constraint) (value : Option Json) :
    (c.kindsOf value).Pairwise fun k l => k.IsTooFew ∧ l.IsTooMany := by
  unfold kindsOf
  cases value.bind Json.count? with
  | none =>
    show (if c.cardinality.required then _ else _ : List Violation.Kind).Pairwise _
    split
    · exact List.pairwise_singleton _ _
    · exact .nil
  | some count =>
    show (_ ++ _ : List Violation.Kind).Pairwise _
    refine List.pairwise_append.2 ⟨?_, ?_, ?_⟩
    · split
      · exact List.pairwise_singleton _ _
      · exact .nil
    · cases c.cardinality.max with
      | none => exact .nil
      | some max =>
        rw [Option.toList_some, List.filter_singleton]
        cases decide (max.toNat < count) with
        | true => exact List.pairwise_singleton _ _
        | false => exact .nil
    · intro k hk l hl
      obtain ⟨max, -, rfl⟩ := List.mem_map.1 hl
      split at hk
      · exact ⟨⟨_, _, List.mem_singleton.1 hk⟩, _, _, rfl⟩
      · cases hk

end Constraint

/-! ## All properties -/

namespace Schema.Node

variable {n : Schema.Node} {values : Dict Json}

/-- **What is reported:** what applies to the count of a property with a constraint. -/
theorem mem_violations_iff {v : Violation} :
    v ∈ n.violations values ↔
      ∃ name c kind, n.constraints.get? name = some c ∧
        kind.Applies c.cardinality (valueCount? values name) ∧ v = ⟨n.id, some name, kind⟩ := by
  rw [violations, List.mem_flatMap]
  constructor
  · rintro ⟨⟨name, c⟩, hc, hv⟩
    obtain ⟨kind, hkind, rfl⟩ := List.mem_map.1 hv
    rw [Constraint.mem_kindsOf_iff, ← valueCount?_eq] at hkind
    exact ⟨name, c, kind, Dict.get?_eq_some_iff.2 hc, hkind, rfl⟩
  · rintro ⟨name, c, kind, hc, hkind, rfl⟩
    rw [valueCount?_eq, ← Constraint.mem_kindsOf_iff] at hkind
    exact ⟨(name, c), Dict.get?_eq_some_iff.1 hc, List.mem_map_of_mem hkind⟩

/-- **The order of a report.** -/
theorem pairwise_violations (n : Schema.Node) (values : Dict Json) :
    (n.violations values).Pairwise Violation.Precedes := by
  rw [violations, List.pairwise_flatMap]
  constructor
  · rintro ⟨name, c⟩ -
    rw [List.pairwise_map]
    exact (c.pairwise_kindsOf _).imp fun {k l} h => ⟨name, rfl, name, rfl, .inr ⟨rfl, h.1, h.2⟩⟩
  · refine n.constraints.sorted.imp fun {a b} hlt v hv w hw => ?_
    obtain ⟨k, -, rfl⟩ := List.mem_map.1 hv
    obtain ⟨l, -, rfl⟩ := List.mem_map.1 hw
    exact ⟨a.1, rfl, b.1, rfl, .inl hlt⟩

/-- **Nothing is reported** just if the cardinality of every constraint allows the count. -/
theorem violations_eq_nil_iff_valueCount? :
    n.violations values = [] ↔
      ∀ name c, n.constraints.get? name = some c →
        c.cardinality.Allows ((valueCount? values name).getD 0) := by
  rw [violations, List.flatMap_eq_nil_iff]
  constructor
  · intro h name c hc
    have hnil := List.map_eq_nil_iff.1 (h (name, c) (Dict.get?_eq_some_iff.1 hc))
    rwa [Constraint.kindsOf_eq_nil_iff, ← valueCount?_eq] at hnil
  · rintro h ⟨name, c⟩ hc
    rw [List.map_eq_nil_iff, Constraint.kindsOf_eq_nil_iff, ← valueCount?_eq]
    exact h name c (Dict.get?_eq_some_iff.2 hc)

end Schema.Node

/-! ## Nodes as they are stored -/

namespace Store.Node

/-- Where constraints are kept under their names, it makes no difference which name is looked up. -/
private theorem violations_plain {n : Node} (h : Named n.constraints) (values : Dict Json) :
    n.plain.violations values = n.violations values := by
  have hentries : n.plain.constraints.entries =
      n.constraints.entries.map fun e => (e.1, e.2.toConstraint) := rfl
  rw [Schema.Node.violations, hentries, violations, Dict.values, List.flatMap_map, List.flatMap_map]
  refine List.flatMap_congr fun e he => ?_
  rw [h e.1 e.2 (Dict.get?_eq_some_iff.2 he)]
  rfl

/-- The constraints of a node and those of the node that it stands for. -/
private theorem get?_constraints_plain (n : Node) (name : String) :
    n.plain.constraints.get? name = (n.constraints.get? name).map (·.toConstraint) :=
  Dict.get?_map _ _ _

/-- **The report of a node.** Let a node be made by any changes, and take any values.

* The report says about a property with a constraint just what applies to the count of its value,
  and it says nothing about other properties.
* It is in the order of the names, and a lower bound is reported before an upper one.
* It is empty just if the cardinality of every constraint allows the count, where no value counts as
  none. -/
theorem violations_make (id : String) (changes : List NodeChange) (values : Dict Json) :
    let n := make id changes
    (∀ v, v ∈ n.violations values ↔
        ∃ name c kind, n.constraints.get? name = some c ∧
          kind.Applies c.cardinality (valueCount? values name) ∧ v = ⟨id, some name, kind⟩) ∧
      (n.violations values).Pairwise Violation.Precedes ∧
      (n.violations values = [] ↔
        ∀ name c, n.constraints.get? name = some c →
          c.cardinality.Allows ((valueCount? values name).getD 0)) := by
  intro n
  have hid : n.plain.id = id := id_change _ changes
  have hnamed : Named n.constraints := named_change named_empty changes
  rw [← violations_plain hnamed]
  refine ⟨fun v => ?_, Schema.Node.pairwise_violations n.plain values, ?_⟩
  · rw [Schema.Node.mem_violations_iff, hid]
    simp only [get?_constraints_plain, Option.map_eq_some_iff]
    constructor
    · rintro ⟨name, -, kind, ⟨c, hc, rfl⟩, hkind, rfl⟩
      exact ⟨name, c, kind, hc, hkind, rfl⟩
    · rintro ⟨name, c, kind, hc, hkind, rfl⟩
      exact ⟨name, c.toConstraint, kind, ⟨c, hc, rfl⟩, hkind, rfl⟩
  · rw [Schema.Node.violations_eq_nil_iff_valueCount?]
    simp only [get?_constraints_plain, Option.map_eq_some_iff]
    constructor
    · exact fun h name c hc => h name _ ⟨c, hc, rfl⟩
    · rintro h name - ⟨c, hc, rfl⟩
      exact h name c hc

/-- Bounds that no count meets are both reported. -/
example :
    (make "Person" [.constrain ⟨⟨.string, ⟨3, some 1⟩⟩, "email"⟩]).violations
        (.ofList [("email", .array [.null, .null])]) =
      [⟨"Person", some "email", .tooFew 2 3⟩, ⟨"Person", some "email", .tooMany 2 1⟩] := by
  decide +kernel

end Store.Node

end ShapeSchema
