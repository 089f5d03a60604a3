import ShapeSchema.Proofs.Naming
import ShapeSchema.Proofs.Statements
import ShapeSchema.Schema.OfStatements
import ShapeSchema.Schema.ToStatements

/-!
# Names in the namespace of an identifier

An identifier is cut into a namespace and a local name, which make the identifier again. A namespace
ends behind a hash, or behind a slash if it holds no hash, or it is empty. So another name that is
put behind it is found again just if the cut is made in the same place: the name holds no hash, and
it holds no slash unless there is a hash in the namespace already.

## Main results

* `ShapeSchema.Naming.cut_cut` — a namespace is its own namespace.
* `ShapeSchema.Naming.cut_namespace_append_iff` — which names are found again.
* `ShapeSchema.Schema.mem_classFacts_toStatements` — the class that a label names.
* `ShapeSchema.Schema.localName_iriOf?_eq_iff` — identifiers that are made from names.
-/

namespace ShapeSchema

namespace Naming

/-! ## Where an identifier is cut -/

/-- An identifier is cut behind its last hash, without one behind its last slash, and without either
at its beginning. -/
private theorem cut_cases (iri : List Char) :
    Text.splitAfterLast? '#' iri = some (cut iri) ∨
      ('#' ∉ iri ∧ Text.splitAfterLast? '/' iri = some (cut iri)) ∨
      ('#' ∉ iri ∧ '/' ∉ iri ∧ cut iri = ([], iri)) := by
  unfold cut
  cases hhash : Text.splitAfterLast? '#' iri with
  | some parts => exact .inl rfl
  | none =>
    have hnone := Text.splitAfterLast?_eq_none_iff.1 hhash
    cases hslash : Text.splitAfterLast? '/' iri with
    | some parts => exact .inr (.inl ⟨hnone, rfl⟩)
    | none => exact .inr (.inr ⟨hnone, Text.splitAfterLast?_eq_none_iff.1 hslash, rfl⟩)

/-- A local name holds no hash, and no slash unless there is a hash in the identifier. -/
private theorem marks_cut (iri : List Char) :
    '#' ∉ (cut iri).2 ∧ ('#' ∈ iri ∨ '/' ∉ (cut iri).2) := by
  rcases cut_cases iri with h | ⟨hhash, h⟩ | ⟨hhash, hslash, h⟩
  · have hmem : '#' ∈ iri := by
      by_contra hhash
      cases (Text.splitAfterLast?_eq_none_iff.2 hhash).symm.trans h
    exact ⟨(Text.of_splitAfterLast? h).1, .inl hmem⟩
  · have hname : '#' ∉ (cut iri).2 := fun hmem =>
      hhash (cut_append iri ▸ List.mem_append_right _ hmem)
    exact ⟨hname, .inr (Text.of_splitAfterLast? h).1⟩
  · rw [h]
    exact ⟨hhash, .inr hslash⟩

/-- **A namespace** is its own namespace, and the local name in it is empty. -/
theorem cut_cut (iri : List Char) : cut (cut iri).1 = ((cut iri).1, []) := by
  rcases cut_cases iri with h | ⟨hhash, h⟩ | ⟨-, -, h⟩
  · rw [cut, (Text.of_splitAfterLast? h).2]
  · have hspace : '#' ∉ (cut iri).1 := fun hmem =>
      hhash (cut_append iri ▸ List.mem_append_left _ hmem)
    rw [cut, Text.splitAfterLast?_eq_none_iff.2 hspace, (Text.of_splitAfterLast? h).2]
  · rw [h]
    rfl

/-- **Names** are found again behind a namespace just if they fit there. -/
theorem cut_namespace_append_iff (iri name : List Char) :
    (cut ((cut iri).1 ++ name)).2 = name ↔ Fits (cut iri).1 name := by
  constructor
  · intro h
    obtain ⟨hhash, hslash⟩ := marks_cut ((cut iri).1 ++ name)
    rw [h] at hhash hslash
    refine ⟨hhash, hslash.imp_left fun hmem => ?_⟩
    exact (List.mem_append.1 hmem).resolve_right hhash
  · intro h
    rw [cut_append_of_fits h, cut_cut, List.nil_append]

/-- **Cutting loses nothing.** The namespace and the local name make the identifier again. -/
theorem namespaceOf_append_localName (iri : String) : namespaceOf iri ++ localName iri = iri := by
  rw [namespaceOf, localName, ← String.ofList_append, cut_append, String.ofList_toList]

/-- A namespace takes up the bytes that the local name leaves. -/
theorem utf8ByteSize_namespaceOf (iri : String) :
    (namespaceOf iri).utf8ByteSize = iri.utf8ByteSize - (localName iri).utf8ByteSize := by
  have hsize := congrArg String.utf8ByteSize (namespaceOf_append_localName iri)
  rw [String.utf8ByteSize_append] at hsize
  omega

/-- **Names.** A name is found again behind a namespace just if it fits there. -/
theorem localName_namespaceOf_append_eq_iff (iri name : String) :
    localName (namespaceOf iri ++ name) = name ↔ Fits (namespaceOf iri).toList name.toList := by
  rw [localName, ← String.toList_inj, String.toList_ofList, String.toList_append, namespaceOf,
    String.toList_ofList, cut_namespace_append_iff]

end Naming

namespace Schema

open Naming (Fits)

variable {s : Schema} {c : Iri}

/-- The identifier of a class is made again from its local name. -/
theorem iriOf?_localName (hspace : s.space = c.namespaceOf) :
    s.iriOf? c.localName = Iri.ofText? c.text := by
  rw [iriOf?, hspace, Iri.namespaceOf, Iri.localName, Naming.namespaceOf_append_localName]

/-- **Names.** The identifier of a name has this name just if the name fits the namespace. -/
theorem localName_iriOf?_eq_iff (hspace : s.space = c.namespaceOf) {name : String} {iri : Iri}
    (hiri : s.iriOf? name = some iri) :
    iri.localName = name ↔ Fits s.space.toList name.toList := by
  rw [iriOf?, Iri.ofText?] at hiri
  split at hiri
  · rw [← Option.some.inj hiri, Iri.localName, hspace, Iri.namespaceOf,
      Naming.localName_namespaceOf_append_eq_iff]
  · cases hiri

/-- Subjects that stand for classes come from nodes with labels. -/
private theorem exists_node_of_mem_classFacts {c : ClassFact} (hc : c ∈ s.toStatements.classFacts) :
    ∃ n ∈ s.nodes.entries, ∃ label, n.firstLabel? = some label ∧
      c = ⟨n.id, ⟨s.space ++ label⟩⟩ := by
  have hmem := Registry.mem_of_mem_ofList (Statements.mem_classFacts_iff.1 hc)
  rcases List.mem_append.1 hmem with h | h
  · obtain ⟨n, hn, h⟩ := List.mem_flatMap.1 h
    rcases List.mem_append.1 h with h | h
    · obtain ⟨target, htarget, heq⟩ := List.mem_map.1 h
      obtain ⟨label, hlabel, hiri⟩ := Option.bind_eq_some_iff.1 (Option.mem_toList.1 htarget)
      refine ⟨n, hn, label, hlabel, ?_⟩
      rw [iriOf?, Iri.ofText?] at hiri
      split at hiri
      · rw [← Fact.ofClass.inj heq, ← Option.some.inj hiri]
      · cases hiri
    · obtain ⟨p, -, heq⟩ := List.mem_map.1 h
      cases heq
  · obtain ⟨e, -, heq⟩ := List.mem_filterMap.1 h
    unfold edgeFact? at heq
    split at heq
    · cases heq
    · cases heq

/-- **Classes.** In the namespace of a class, the node with its local name for a label stands for
the class itself. -/
theorem mem_classFacts_toStatements (hspace : s.space = c.namespaceOf) (hc : c.IsValid) {n : Node}
    (hn : n ∈ s.nodes.entries) (hlabel : n.firstLabel? = some c.localName) :
    ⟨n.id, c⟩ ∈ s.toStatements.classFacts := by
  have hfact : Fact.ofClass ⟨n.id, c⟩ ∈
      s.nodes.entries.flatMap s.nodeFacts ++ s.edges.entries.filterMap s.edgeFact? := by
    refine List.mem_append_left _ (List.mem_flatMap.2 ⟨n, hn, List.mem_append_left _ ?_⟩)
    refine List.mem_map.2 ⟨c, ?_, rfl⟩
    rw [hlabel, Option.bind_some, iriOf?_localName hspace, Iri.ofText?, if_pos hc]
    exact List.mem_singleton_self c
  have hkey : Fact.id (.ofClass ⟨n.id, c⟩) ∈ s.toStatements.facts.keys :=
    Registry.mem_keys_ofList.2 (List.mem_map_of_mem hfact)
  obtain ⟨g, hg, hid⟩ := List.mem_map.1 hkey
  obtain ⟨d, hd⟩ := Option.isSome_iff_exists.1 ((Fact.kind_eq_of_id_eq hid).1.trans rfl)
  rw [Fact.class?_eq_some_iff] at hd
  subst hd
  have hsubject : d.subject = n.id := (String.append_right_inj "type:").1 hid
  have hmem : d ∈ s.toStatements.classFacts := Statements.mem_classFacts_iff.2 hg
  obtain ⟨m, hm, label, hlabel', rfl⟩ := exists_node_of_mem_classFacts hmem
  obtain rfl : m = n := Registry.eq_of_key_eq hm hn hsubject
  obtain rfl := Option.some.inj (hlabel'.symm.trans hlabel)
  rw [hspace, Iri.namespaceOf, Iri.localName, Naming.namespaceOf_append_localName] at hmem
  exact hmem

/-- **Names in a namespace.** An identifier is its namespace and its local name, which share its
bytes. A name is found again behind the namespace of an identifier just if it holds no hash, and no
slash unless the namespace holds a hash. So in the namespace of a class, a schema makes the
identifier of the class from its local name, and the node with this label stands for the class
again; any other name that an identifier is made from is the local name of this identifier just
under the same condition. -/
theorem names_in_namespace :
    (∀ iri, Naming.namespaceOf iri ++ Naming.localName iri = iri ∧
      (Naming.namespaceOf iri).utf8ByteSize =
        iri.utf8ByteSize - (Naming.localName iri).utf8ByteSize) ∧
    (∀ iri name, Naming.localName (Naming.namespaceOf iri ++ name) = name ↔
      '#' ∉ name.toList ∧ ('#' ∈ (Naming.namespaceOf iri).toList ∨ '/' ∉ name.toList)) ∧
    ∀ (s : Schema) (c : Iri), s.space = c.namespaceOf →
      s.iriOf? c.localName = Iri.ofText? c.text ∧
      (c.IsValid → ∀ n ∈ s.nodes.entries, n.firstLabel? = some c.localName →
        ⟨n.id, c⟩ ∈ s.toStatements.classFacts) ∧
      ∀ name iri, s.iriOf? name = some iri →
        (iri.localName = name ↔ Fits s.space.toList name.toList) := by
  refine ⟨fun iri => ⟨?_, ?_⟩, Naming.localName_namespaceOf_append_eq_iff, fun s c hspace =>
    ⟨iriOf?_localName hspace, ?_, ?_⟩⟩
  · exact Naming.namespaceOf_append_localName iri
  · exact Naming.utf8ByteSize_namespaceOf iri
  · intro hc n hn hlabel
    exact mem_classFacts_toStatements hspace hc hn hlabel
  · intro name iri hiri
    exact localName_iriOf?_eq_iff hspace hiri

/-- The schema of a class in a namespace without a hash. -/
def personSchema : Schema :=
  ofStatements {} (.ofList "people" "http://example.org/v1/"
    [.ofClass ⟨"Person", ⟨"http://example.org/v1/Person"⟩⟩])

/-- A name with a slash is not found again there. -/
theorem names_in_namespace_personSchema :
    ⟨"Person", ⟨"http://example.org/v1/Person"⟩⟩ ∈ personSchema.toStatements.classFacts ∧
      personSchema.iriOf? "post/code" = some ⟨"http://example.org/v1/post/code"⟩ ∧
      Iri.localName ⟨"http://example.org/v1/post/code"⟩ ≠ "post/code" := by
  have hspace : personSchema.space = Iri.namespaceOf ⟨"http://example.org/v1/Person"⟩ := by
    decide +kernel
  have hiri : personSchema.iriOf? "post/code" = some ⟨"http://example.org/v1/post/code"⟩ := by
    decide +kernel
  obtain ⟨-, hclass, hname⟩ := names_in_namespace.2.2 personSchema _ hspace
  have hnode : ∃ n ∈ personSchema.nodes.entries, n.id = "Person" ∧
      n.firstLabel? = some (Iri.localName ⟨"http://example.org/v1/Person"⟩) := by decide +kernel
  obtain ⟨n, hn, hid, hlabel⟩ := hnode
  refine ⟨hid ▸ hclass (by decide +kernel) n hn hlabel, hiri, ?_⟩
  rw [ne_eq, hname "post/code" _ hiri, Fits]
  decide +kernel

end Schema

end ShapeSchema
