import ShapeSchema.Rdf.Graph

/-!
# Outlines of graphs

A text of a graph that does not depend on the order of its triples nor on the names of its blank
nodes: each triple of an IRI is a line, and a blank node is written as the bracketed list of its
own triples wherever it stands. Blank nodes that can be reached only through a cycle are left out.

## Main definitions

* `ShapeSchema.Rdf.Graph.outlineBlank`, `ShapeSchema.Rdf.Graph.outlineTerm` — what is written for a
  blank node, and for any term.
* `ShapeSchema.Rdf.Graph.outline` — the sorted lines of a graph.
* `ShapeSchema.Rdf.Graph.SameOutline` — the relation "looks the same".
-/

namespace ShapeSchema.Rdf

/-- Texts by code point, repeated ones kept. -/
def sortTexts (texts : List String) : List String := texts.mergeSort

/-- The blank node that a subject is. -/
def Subject.blank? : Subject → Option BlankNode
  | iri _ => none
  | blank b => some b

/-- A term as a text, with a text for each blank node. -/
def Term.outline (blankText : BlankNode → String) : Term → String
  | iri i => bracketed i
  | literal l => l.text
  | blank b => blankText b

namespace Graph

/-- The properties of a subject. -/
def propertiesOf (g : Graph) (subject : Subject) : List (Iri × Term) :=
  g.triples.filterMap fun t =>
    if t.subject = subject then some (t.predicate, t.object) else none

/-- A blank node as the bracketed list of its properties. `inside` holds the nodes that it stands
inside of; as they are distinct nodes of the graph, `fuel` beyond the number of triples is never
used up. -/
def outlineBlank (g : Graph) (fuel : Nat) (inside : List BlankNode) (node : BlankNode) : String :=
  match fuel with
  | 0 => "[cycle]"
  | fuel + 1 =>
    if node ∈ inside then "[cycle]"
    else
      let entries := (g.propertiesOf (.blank node)).map fun (p, o) =>
        bracketed p ++ " " ++ o.outline (g.outlineBlank fuel (node :: inside))
      "[" ++ "; ".intercalate (sortTexts entries) ++ "]"

/-- A term in an outline. -/
def outlineTerm (g : Graph) (t : Term) : String := t.outline (g.outlineBlank (g.size + 1) [])

/-- The blank nodes that are subjects and objects of no triple. -/
def rootBlanks (g : Graph) : List BlankNode :=
  ((g.triples.filterMap (·.subject.blank?)).filter fun b =>
    ∀ t ∈ g.triples, t.object ≠ .blank b).eraseDups

/-- The lines of the triples that have an IRI for their subject. -/
def iriLines (g : Graph) : List String :=
  g.triples.filterMap fun t =>
    match t.subject with
    | .iri s =>
      some (bracketed s ++ " " ++ bracketed t.predicate ++ " " ++ g.outlineTerm t.object)
    | .blank _ => none

/-- The sorted lines of a graph. -/
def outline (g : Graph) : List String :=
  sortTexts (g.iriLines ++ g.rootBlanks.map fun b => g.outlineTerm (.blank b))

/-- Two graphs have equally many triples and the same lines. -/
def SameOutline (g h : Graph) : Prop := g.size = h.size ∧ g.outline = h.outline

instance (g h : Graph) : Decidable (g.SameOutline h) := inferInstanceAs (Decidable (_ ∧ _))

end Graph

end ShapeSchema.Rdf
