import ShapeSchema.Registry
import ShapeSchema.Cardinality
import ShapeSchema.Rdf.Term

/-!
# Facts

Shapes are read into facts: which class a subject stands for, which properties it has and how it is
related to other classes. A fact has an identifier, and a set of statements holds one fact under
each identifier.

A property of a relationship may be *copied* as a property fact of the subject, under a name that
is put together from the relationship and the property.

## Main definitions

* `ShapeSchema.Property` — what is said about a property: its name, datatype and cardinality.
* `ShapeSchema.ClassFact`, `ShapeSchema.PropertyFact`, `ShapeSchema.RelationFact` — the facts.
* `ShapeSchema.Fact.id` — their identifiers.
* `ShapeSchema.Statements` — facts in the order in which their identifiers arrived.
-/

namespace ShapeSchema

/-- What is said about a property. -/
structure Property where
  /-- The property. -/
  predicate : Iri
  /-- The datatype of its values. -/
  datatype : Iri
  /-- How many values it has. -/
  cardinality : Cardinality
  deriving DecidableEq, Inhabited

/-- The name of a property. -/
def Property.name (p : Property) : String := p.predicate.localName

/-- A subject stands for a class. -/
structure ClassFact where
  /-- The subject. -/
  subject : String
  /-- The class. -/
  object : Iri
  deriving DecidableEq, Inhabited

/-- A subject has a property. -/
structure PropertyFact where
  /-- The subject. -/
  subject : String
  /-- The property. -/
  property : Property
  /-- The relationship that the property belongs to, if it is copied. -/
  copyOf : Option Iri := none
  deriving DecidableEq, Inhabited

namespace PropertyFact

/-- The name of the property; that of a copied one begins with the relationship. -/
def name (f : PropertyFact) : String :=
  match f.copyOf with
  | none => f.property.name
  | some relationship => relationship.localName ++ "_" ++ f.property.name

/-- Whether the property is copied. -/
def isCopy (f : PropertyFact) : Bool := f.copyOf.isSome

end PropertyFact

/-- A subject is related to a class. -/
structure RelationFact where
  /-- The subject. -/
  subject : String
  /-- The relationship. -/
  predicate : Iri
  /-- The subject that stands for the class. -/
  object : String
  /-- The class. -/
  target : Iri
  /-- How many relationships of this kind there are. -/
  cardinality : Cardinality
  /-- The properties of the relationship itself. -/
  properties : List Property := []
  deriving DecidableEq, Inhabited

namespace RelationFact

/-- The name of the relationship. -/
def name (f : RelationFact) : String := f.predicate.localName

/-- A subject is related to a class, which is known by its local name. -/
def toClass (subject : String) (predicate target : Iri) (cardinality : Cardinality)
    (properties : List Property) : RelationFact :=
  ⟨subject, predicate, target.localName, target, cardinality, properties⟩

/-- The copied properties of a relationship. -/
def copies (f : RelationFact) : List PropertyFact :=
  f.properties.map fun p => ⟨f.subject, p, some f.predicate⟩

end RelationFact

/-- The facts. -/
inductive Fact where
  | ofClass (fact : ClassFact)
  | ofProperty (fact : PropertyFact)
  | ofRelation (fact : RelationFact)
  deriving DecidableEq, Inhabited

namespace Fact

/-- The subject of a fact. -/
def subject : Fact → String
  | ofClass f => f.subject
  | ofProperty f => f.subject
  | ofRelation f => f.subject

/-- The identifier of a fact. It begins with the kind of the fact, so facts with one identifier are
of one kind. Subjects and names are joined with colons that they may have themselves, so these facts
need not have one subject or one name. -/
def id : Fact → String
  | ofClass f => "type:" ++ f.subject
  | ofProperty f => "property:" ++ f.subject ++ ":" ++ f.name
  | ofRelation f => "edge:" ++ f.subject ++ ":" ++ f.name ++ ":" ++ f.object

instance : Keyed Fact := ⟨id⟩

/-- A fact as one line. -/
def text : Fact → String
  | ofClass f => f.subject ++ " a " ++ Rdf.bracketed f.object
  | ofProperty f => f.subject ++ " " ++ f.name ++ " " ++ Rdf.bracketed f.property.datatype ++ " " ++
      f.property.cardinality.text
  | ofRelation f => f.subject ++ " " ++ Rdf.bracketed f.predicate ++ " " ++
      Rdf.bracketed f.target ++ " " ++ f.cardinality.text

/-- The fact as one about a class, if it is. -/
def class? : Fact → Option ClassFact
  | ofClass f => some f
  | _ => none

/-- The fact as one about a property, if it is. -/
def property? : Fact → Option PropertyFact
  | ofProperty f => some f
  | _ => none

/-- The fact as one about a relationship, if it is. -/
def relation? : Fact → Option RelationFact
  | ofRelation f => some f
  | _ => none

end Fact

/-- Facts about one domain, in the order in which their identifiers arrived. -/
structure Statements where
  /-- What the statements are called. -/
  name : String
  /-- The namespace that names become IRIs in. -/
  space : String
  /-- The facts. -/
  facts : Registry Fact := {}
  deriving Inhabited

namespace Statements

/-- The statements with a fact in them, in the place of the one with its identifier if there is
one. -/
def insert (s : Statements) (f : Fact) : Statements := { s with facts := s.facts.insert f }

/-- The fact with the identifier. -/
def find? (s : Statements) (id : String) : Option Fact := s.facts.find? id

/-- The facts in order. -/
def toList (s : Statements) : List Fact := s.facts.entries

/-- The facts about classes in order. -/
def classFacts (s : Statements) : List ClassFact := s.toList.filterMap Fact.class?

/-- The facts about properties in order, copied ones included. -/
def propertyFacts (s : Statements) : List PropertyFact := s.toList.filterMap Fact.property?

/-- The facts about relationships in order. -/
def relationFacts (s : Statements) : List RelationFact := s.toList.filterMap Fact.relation?

/-- The facts about properties of subjects themselves in order. -/
def ownPropertyFacts (s : Statements) : List PropertyFact :=
  s.propertyFacts.filter (!·.isCopy)

/-- The statements that hold the given facts, inserted in turn. -/
def ofList (name space : String) (facts : List Fact) : Statements :=
  ⟨name, space, Registry.ofList facts⟩

/-- Whether there are no facts. -/
def isEmpty (s : Statements) : Bool := s.toList.isEmpty

end Statements

end ShapeSchema
