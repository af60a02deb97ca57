import Thesaurus.Registry
import Thesaurus.Term.Basic

/-!
# Edges

An edge is a typed link from one term to another. What a link implies backwards
is decided by the registry; an edge and the edge it implies make up one relation
and are written and removed together.

## Main definitions

* `Edge.inverse?`: the implied edge.
* `Edge.plan`: an edge and what it implies.
-/

namespace Thesaurus

/-- A typed link between two terms. -/
structure Edge where
  source : TermId
  target : TermId
  type : String
deriving DecidableEq, Repr, Inhabited

namespace Edge

/-- The edge as one line of text. -/
def text (e : Edge) : String := e.source.text ++ " -[" ++ e.type ++ "]-> " ++ e.target.text

/-- The edge that this one implies backwards. -/
def inverse? (registry : Registry) (e : Edge) : Option Edge :=
  (registry.implied? e.type).map fun type =>
    { source := e.target, target := e.source, type := type }

/-- The edge, and after it the edge it implies. -/
def plan (registry : Registry) (e : Edge) : List Edge := e :: (e.inverse? registry).toList

/-- The order of edges by source, target and type. -/
def leBySource (a b : Edge) : Bool :=
  if a.source.text ≠ b.source.text then decide (a.source.text < b.source.text)
  else if a.target.text ≠ b.target.text then decide (a.target.text < b.target.text)
  else decide (a.type ≤ b.type)

/-- The order of the edges of one term, by type and target. -/
def leByType (a b : Edge) : Bool :=
  if a.type ≠ b.type then decide (a.type < b.type) else decide (a.target.text ≤ b.target.text)

end Edge

/-- One write to the edges of a store. -/
inductive EdgeOp
  | add (edge : Edge)
  | remove (edge : Edge)
deriving DecidableEq, Repr

/-- A restriction to some relation types; the empty one accepts every type. -/
abbrev TypeFilter := List String

/-- Whether a filter accepts a type. -/
def TypeFilter.accepts (filter : TypeFilter) (type : String) : Bool :=
  filter.isEmpty || filter.contains type

/-- An edge as it is drawn: with the label and the colour of its type. -/
structure DrawnEdge where
  edge : Edge
  label : String
  color : String
deriving DecidableEq, Repr, Inhabited

/-- The colour of links whose type is not registered. -/
def plainColor : String := "#667085"

/-- An edge with the label and the colour of its type. -/
def Edge.drawn (registry : Registry) (e : Edge) : DrawnEdge :=
  match registry.get? e.type with
  | some t => { edge := e, label := t.displayName, color := t.color }
  | none => { edge := e, label := e.type, color := plainColor }

end Thesaurus
