import ShapeSchema.Document.Json
import ShapeSchema.Proofs.Dict
import ShapeSchema.Proofs.Trees

/-!
# Documents are read back

A document is read back from its text, whatever its texts, counts and bounds are. Records are
written member by member, and a member that is not written keeps its default, which is what is not
written.

## Main definitions

* `ShapeSchema.Json.ReadsBack` — a way of writing and one of reading that fit together.

## Main results

* `ShapeSchema.Json.readsBack_list`, `ShapeSchema.Json.readsBack_dict` — arrays and dictionaries.
* `ShapeSchema.Json.RecordFormat.takeMembers_member`,
  `ShapeSchema.Json.RecordFormat.takeMembers_bound` — the members of a record.
* `ShapeSchema.Document.ofText_text` — a document is read back from its text.
-/

namespace ShapeSchema

namespace Json

/-- Every value is read back from the JSON that is written for it. -/
def ReadsBack {α : Type} (write : α → Json) (read : Reader α) : Prop :=
  ∀ a, read (treeOf (write a)) = .ok a

/-! ## Plain kinds -/

/-- Texts are read back. -/
theorem readsBack_string : ReadsBack .string readString := fun _ => rfl

/-- Counts are read back. -/
theorem readsBack_count : ReadsBack Document.countJson readCount := by
  intro n
  have hvalue : Numeral.natOf (Nat.toDigits 10 n.toNat) = n.toNat := by
    rw [Numeral.natOf, Nat.ofDigitChars_ten_toDigits]
  have hplain : (Number.numeral (.whole n.toNat)).isPlain = true := rfl
  have hwhole : (Number.numeral (.whole n.toNat)).whole = Nat.toDigits 10 n.toNat := rfl
  rw [Document.countJson, treeOf, readCount, if_pos hplain, hwhole, hvalue, Count.ofNat?_toNat]

/-- If every member of a list is read as something, the list is read as all that. -/
private theorem mapM_map_eq_ok {α β γ : Type} {f : α → β} {g : β → Except Problem γ} {k : α → γ}
    (h : ∀ a, g (f a) = .ok (k a)) (l : List α) : (l.map f).mapM g = .ok (l.map k) := by
  induction l with
  | nil => rfl
  | cons a l ih =>
    rw [List.map_cons, List.mapM_cons, h a, ih]
    rfl

section

variable {α : Type} {write : α → Json} {read : Reader α}

/-- Arrays are read back item by item. -/
theorem readsBack_list (h : ReadsBack write read) :
    ReadsBack (fun l => .array (l.map write)) (readList read) := by
  intro l
  rw [treeOf, treesOf_eq_map, List.map_map, readList, mapM_map_eq_ok (k := id), List.map_id]
  · rfl
  · exact h

/-- Dictionaries are read back member by member. -/
theorem readsBack_dict (h : ReadsBack write read) :
    ReadsBack (fun d : Dict α => .object (d.entries.map fun entry => (entry.1, write entry.2)))
      (readDict read) := by
  intro d
  rw [treeOf, treesOfMembers_eq_map, List.map_map, readDict, mapM_map_eq_ok (k := id), List.map_id]
  · exact congrArg Except.ok (Dict.ofList_entries d)
  · intro entry
    simp only [Function.comp_apply, Tree.keyText, h entry.2]
    rfl

end

/-! ## Records -/

namespace RecordFormat

variable {α β : Type} {format : RecordFormat α} {seen : List String} {record : α}
  {write : β → Json} {read : Reader β} {required : Bool} {set : α → β → α}

/-- A member is taken in if its name was not there before. -/
theorem takeMembers_member (name : String)
    (hfield : format.fields.find? (·.name = name) = some (field name required read set))
    (hseen : name ∉ seen) (h : ReadsBack write read) (value : β)
    (members : List (String × Json)) :
    format.takeMembers seen record (treesOfMembers ((name, write value) :: members)) =
      format.takeMembers (name :: seen) (set record value) (treesOfMembers members) := by
  have hvalue : (field name required read set).take record (treeOf (write value)) =
      .ok (set record value) := by
    show (read (treeOf (write value))).map _ = _
    rw [h value]
    rfl
  rw [treesOfMembers, takeMembers, Tree.keyText]
  simp only [bind, Except.bind, hfield, if_neg hseen, hvalue]

/-- A bound is taken in, or it is not there and keeps its default. -/
theorem takeMembers_bound (name : String) {set : α → Option β → α}
    (hfield : format.fields.find? (·.name = name) =
      some (field name required (readOptional read) set))
    (hseen : name ∉ seen) (h : ReadsBack write read) (hnull : ∀ b, treeOf (write b) ≠ .null)
    (hdefault : set record none = record) (value : Option β) (members : List (String × Json)) :
    format.takeMembers seen record
        (treesOfMembers (Document.bound write name value ++ members)) =
      format.takeMembers (value.toList.map (fun _ => name) ++ seen) (set record value)
        (treesOfMembers members) := by
  cases value with
  | none => rw [hdefault]; rfl
  | some value =>
    have hoptional : ReadsBack (fun b : Option β => b.elim .null write) (readOptional read) := by
      rintro (_ | b)
      · rfl
      · show readOptional read (treeOf (write b)) = _
        rw [readOptional, h b]
        · rfl
        · exact hnull b
    exact takeMembers_member name hfield hseen hoptional (some value) members

/-- A record is read from its members if those that are required are there. -/
theorem read_object {members : List (String × Json)}
    (h : format.takeMembers [] format.start (treesOfMembers members) = .ok (seen, record))
    (hrequired : ∀ f ∈ format.fields, f.required → f.name ∈ seen) :
    format.read (treeOf (.object members)) = .ok record := by
  have hcomplete : (format.fields.filter (!seen.contains ·.name)).any (·.required) = false := by
    rw [List.any_eq_false]
    intro f hf hfrequired
    rw [List.mem_filter] at hf
    simp [hrequired f hf.1 hfrequired] at hf
  rw [treeOf, read, h]
  show complete _ record = _
  rw [complete, hcomplete]
  rfl

end RecordFormat

end Json

namespace Document

open Json (ReadsBack field readDict readsBack_count readsBack_dict readsBack_list readsBack_string
  treesOfMembers)
open Json.RecordFormat (read_object)

/-- **Properties.** A bound that is not set is not written. -/
theorem readsBack_property : ReadsBack Property.toJson Property.format.read := by
  intro p
  have hmembers : Property.format.takeMembers [] {} (treesOfMembers (("type", .string p.datatype) ::
      (bound countJson "minCount" p.min ++ (bound countJson "maxCount" p.max ++ [])))) =
      .ok (p.max.toList.map (fun _ => "maxCount") ++
        (p.min.toList.map (fun _ => "minCount") ++ ["type"]), p) := by
    rw [Property.format.takeMembers_member "type" rfl (by simp) readsBack_string,
      Property.format.takeMembers_bound "minCount" rfl (by simp) readsBack_count nofun rfl,
      Property.format.takeMembers_bound "maxCount" rfl (by simp) readsBack_count nofun rfl]
    rfl
  have hjson : p.toJson = .object (("type", .string p.datatype) ::
      (bound countJson "minCount" p.min ++ (bound countJson "maxCount" p.max ++ []))) := by
    simp [Property.toJson]
  rw [hjson]
  exact read_object hmembers (by simp [Property.format, field])

/-- The properties of a node or a relationship are read back. -/
theorem readsBack_properties : ReadsBack propertiesJson (readDict Property.format.read) :=
  readsBack_dict readsBack_property

/-- **Nodes.** -/
theorem readsBack_node : ReadsBack Node.toJson Node.format.read := by
  intro n
  have hmembers : Node.format.takeMembers [] Node.format.start (treesOfMembers
      [("label", .string n.label), ("properties", propertiesJson n.properties)]) =
      .ok (["properties", "label"], n) := by
    rw [Node.format.takeMembers_member "label" rfl (by simp) readsBack_string,
      Node.format.takeMembers_member "properties" rfl (by simp) readsBack_properties]
    rfl
  exact read_object hmembers (by simp [Node.format, field])

/-- **Relationships.** A bound that is not set is not written. -/
theorem readsBack_relationship : ReadsBack Relationship.toJson Relationship.format.read := by
  intro r
  have hmembers : Relationship.format.takeMembers [] Relationship.format.start (treesOfMembers
      (("type", .string r.type) :: ("source", .string r.source) :: ("target", .string r.target) ::
        ("properties", propertiesJson r.properties) ::
        (bound .string "minCount" r.min ++ (bound .string "maxCount" r.max ++ [])))) =
      .ok (r.max.toList.map (fun _ => "maxCount") ++ (r.min.toList.map (fun _ => "minCount") ++
        ["properties", "target", "source", "type"]), r) := by
    rw [Relationship.format.takeMembers_member "type" rfl (by simp) readsBack_string,
      Relationship.format.takeMembers_member "source" rfl (by simp) readsBack_string,
      Relationship.format.takeMembers_member "target" rfl (by simp) readsBack_string,
      Relationship.format.takeMembers_member "properties" rfl (by simp)
        readsBack_properties,
      Relationship.format.takeMembers_bound "minCount" rfl (by simp) readsBack_string nofun
        rfl,
      Relationship.format.takeMembers_bound "maxCount" rfl (by simp) readsBack_string nofun
        rfl]
    rfl
  have hjson : r.toJson = .object (("type", .string r.type) :: ("source", .string r.source) ::
      ("target", .string r.target) :: ("properties", propertiesJson r.properties) ::
      (bound .string "minCount" r.min ++ (bound .string "maxCount" r.max ++ []))) := by
    simp [Relationship.toJson]
  rw [hjson]
  exact read_object hmembers (by simp [Relationship.format, field])

/-- All of a document is read back. -/
theorem readsBack_document : ReadsBack toJson format.read := by
  intro d
  have hmembers : format.takeMembers [] {} (treesOfMembers
      [("nodes", .array (d.nodes.map Node.toJson)),
        ("relationships", .array (d.relationships.map Relationship.toJson))]) =
      .ok (["relationships", "nodes"], d) := by
    rw [format.takeMembers_member "nodes" rfl (by simp) (readsBack_list readsBack_node),
      format.takeMembers_member "relationships" rfl (by simp)
        (readsBack_list readsBack_relationship)]
    rfl
  exact read_object hmembers (by simp [format, field])

/-- **Documents.** A document is read back from its text. -/
theorem ofText_text (d : Document) : ofText d.text = .ok d := by
  rw [ofText, text, Json.readText_pretty]
  exact readsBack_document d

end Document

end ShapeSchema
