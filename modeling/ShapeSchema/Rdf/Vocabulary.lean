import ShapeSchema.Iri.Basic

/-!
# Vocabulary

The identifiers of RDF, XML Schema and SHACL that shapes are made of.
-/

namespace ShapeSchema

/-- The namespace of SHACL. -/
def shNamespace : String := "http://www.w3.org/ns/shacl#"

/-- The namespace of RDF. -/
def rdfNamespace : String := "http://www.w3.org/1999/02/22-rdf-syntax-ns#"

/-- The namespace of the XML Schema datatypes. -/
def xsdNamespace : String := "http://www.w3.org/2001/XMLSchema#"

/-- The namespace that is used when nothing suggests another one. -/
def defaultNamespace : String := "http://schema.org/"

/-- Identifiers of RDF. -/
def rdf (name : String) : Iri := ⟨rdfNamespace ++ name⟩

/-- Identifiers of XML Schema. -/
def xsd (name : String) : Iri := ⟨xsdNamespace ++ name⟩

/-- Identifiers of SHACL. -/
def sh (name : String) : Iri := ⟨shNamespace ++ name⟩

namespace Vocabulary

/-- Links a node to its class. -/
def type : Iri := rdf "type"

/-- Links a list to its first element. -/
def first : Iri := rdf "first"

/-- Links a list to its remainder. -/
def rest : Iri := rdf "rest"

/-- The empty list. -/
def nil : Iri := rdf "nil"

/-- The datatype of texts with a language tag. -/
def langString : Iri := rdf "langString"

/-- The class of node shapes. -/
def nodeShape : Iri := sh "NodeShape"

/-- The class of property shapes. -/
def propertyShape : Iri := sh "PropertyShape"

/-- Links a node shape to the class whose instances it describes. -/
def targetClass : Iri := sh "targetClass"

/-- Links a shape to its property shapes. -/
def property : Iri := sh "property"

/-- Links a property shape to its property. -/
def path : Iri := sh "path"

/-- The datatype of the values of a property. -/
def datatype : Iri := sh "datatype"

/-- The class of the values of a property. -/
def «class» : Iri := sh "class"

/-- The least number of values of a property. -/
def minCount : Iri := sh "minCount"

/-- The greatest number of values of a property. -/
def maxCount : Iri := sh "maxCount"

end Vocabulary

end ShapeSchema
