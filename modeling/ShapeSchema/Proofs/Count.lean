import ShapeSchema.Schema.Basic
import ShapeSchema.Statement.OfShapes
import ShapeSchema.Statement.ToShapes

/-!
# Counts as text

Counts are written in decimal digits in two places: as literals of a graph and among the properties
of an edge. Both are read back as what they were, over the whole range of counts.

## Main results

* `ShapeSchema.Count.ofText?_text` — a count is read back from its digits.
* `ShapeSchema.countOf?_countLiteral` — a count is read back from its literal.
* `ShapeSchema.Schema.Edge.get?_setCardinality` — what a cardinality does to the properties of an
  edge.
* `ShapeSchema.Schema.Edge.cardinality?_setCardinality` — a cardinality is read back from an edge.
-/

namespace ShapeSchema

/-! ## Digits -/

namespace Text

/-- Digits are no blanks. -/
private theorem isBlank_eq_false_of_isDigit {c : Char} (h : c.isDigit = true) :
    isBlank c = false := by
  obtain ⟨hlow, hhigh⟩ := Char.isDigit_iff_toNat.1 h
  have hzero : '0'.toNat = 48 := rfl
  have hnine : '9'.toNat = 57 := rfl
  simp only [isBlank, Bool.or_eq_false_iff, Bool.and_eq_false_imp, decide_eq_true_eq,
    decide_eq_false_iff_not, beq_eq_false_iff_ne]
  omega

/-- Digits have no blanks around them. -/
private theorem trim_toDigits (n : Nat) : trim (Nat.toDigits 10 n) = Nat.toDigits 10 n :=
  trim_eq_self fun _ hc => isBlank_eq_false_of_isDigit (isDigit_of_mem_toDigits hc)

end Text

/-! ## Counts -/

namespace Count

/-- A count is the count with its value. -/
theorem ofNat?_toNat (n : Count) : ofNat? n.toNat = some n := by
  have h : n.toNat < UInt64.size := n.toNat_lt_size
  simp [ofNat?, h]

/-- **Text.** A count is read back from its digits. -/
theorem ofText?_toDigits (n : Count) : ofText? (Nat.toDigits 10 n.toNat) = some n := by
  have hdigits := Text.ofDigits?_toDigits n.toNat
  cases hl : Nat.toDigits 10 n.toNat with
  | nil => exact absurd hl (Nat.toDigits_ne_nil)
  | cons c rest =>
    have hc : c ≠ '+' := by
      have hdigit : c.isDigit = true := Text.isDigit_of_mem_toDigits (hl ▸ List.mem_cons_self)
      rintro rfl
      exact absurd hdigit (by decide)
    rw [hl] at hdigits
    -- no sign stands before the digits
    have hplain : ofText? (c :: rest) = (Text.ofDigits? (c :: rest)).bind ofNat? := by
      unfold ofText?
      split
      · next heq => exact absurd (List.cons.inj heq).1 hc
      · rfl
    rw [hplain, hdigits, Option.bind_some, ofNat?_toNat]

/-- A count is read back from its text. -/
theorem ofText?_text (n : Count) : ofText? n.text.toList = some n := by
  rw [text, Nat.repr_eq_ofList_toDigits, String.toList_ofList, ofText?_toDigits]

end Count

/-! ## Literals -/

/-- A literal keeps its text, whatever its datatype. -/
@[simp] theorem Rdf.Literal.value_typed (value : String) (datatype : Iri) :
    (typed value datatype).value = value := by
  unfold typed
  split <;> rfl

/-- **Graphs.** A count is read back from its literal. -/
theorem countOf?_countLiteral (n : Count) : countOf? (countLiteral n) = some n := by
  show Count.ofText? (Text.trim (Rdf.Literal.typed n.text (xsd "integer")).value.toList) = some n
  rw [Rdf.Literal.value_typed, Count.text, Nat.repr_eq_ofList_toDigits, String.toList_ofList,
    Text.trim_toDigits, Count.ofText?_toDigits]

/-! ## Properties of edges -/

namespace Schema.Edge

/-- **Bounds of edges.** The lower bound is always written, the upper bound is written or taken
away, and no other property changes. -/
theorem get?_setCardinality (e : Edge) (c : Cardinality) (name : String) :
    (e.setCardinality c).properties.get? name =
      if name = minKey then some c.min.text
      else if name = maxKey then c.max.map Count.text else e.properties.get? name := by
  have hkeys : maxKey ≠ minKey := by decide
  obtain ⟨min, max⟩ := c
  by_cases hname : name = maxKey
  · subst hname
    cases max <;> simp [setCardinality, setProperty, Dict.get?_insert, Dict.get?_erase, hkeys]
  · cases max <;>
      simp [setCardinality, setProperty, Dict.get?_insert, Dict.get?_erase, hname]

/-- **Edges.** A cardinality is read back from the edge that it was given to. -/
theorem cardinality?_setCardinality (e : Edge) (c : Cardinality) :
    (e.setCardinality c).cardinality? = some c := by
  have hkeys : maxKey ≠ minKey := by decide
  have hmin : (e.setCardinality c).count? minKey = some c.min := by
    rw [count?, get?_setCardinality, if_pos rfl, Option.bind_some, Count.ofText?_text]
  have hmax : (e.setCardinality c).count? maxKey = c.max := by
    rw [count?, get?_setCardinality, if_neg hkeys, if_pos rfl]
    cases c.max with
    | none => rfl
    | some max => exact Count.ofText?_text max
  simp [cardinality?, hmin, hmax]

end Schema.Edge

end ShapeSchema
