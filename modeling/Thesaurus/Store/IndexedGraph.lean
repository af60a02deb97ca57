import Thesaurus.Edge
import Thesaurus.Table

/-!
# The term graph with its indexes

The term graph answers by identity, by fully qualified name and by glossary without a
search through its nodes. For that it keeps three tables beside the nodes: the node of each
identity, the node that each name leads to, and the nodes that are listed under each
glossary. Nodes are known by their index, which never changes, and edges lead from index to
index. When an edge is removed, the last one takes its place.

A term that is added again keeps its node. It moves from one name or glossary to another if
these change.
-/

namespace Thesaurus

/-- A stored edge: the nodes of its ends, and its type. -/
structure Arc where
  source : Nat
  target : Nat
  type : String
deriving DecidableEq, Repr, Inhabited

/-- Takes out the item at an index; the last item takes its place. -/
def swapRemove {α : Type} (items : List α) (index : Nat) : List α :=
  match items.getLast? with
  | some last => (items.set index last).dropLast
  | none => []

/-- The nodes of each glossary, in the order in which they came to it. -/
abbrev Listings := Table (List Nat)

namespace Listings

/-- The nodes that are listed under a glossary. -/
def under (listings : Listings) (id : GlossaryId) : List Nat := (listings.get? id.text).getD []

/-- Lists a node under a glossary. -/
def add (listings : Listings) (id : GlossaryId) (index : Nat) : Listings :=
  listings.insert id.text (listings.under id ++ [index])

/-- Takes a node from under a glossary, if that has a listing. -/
def remove (listings : Listings) (id : GlossaryId) (index : Nat) : Listings :=
  match listings.get? id.text with
  | some listed => listings.insert id.text (listed.filter (· ≠ index))
  | none => listings

/-- Moves a node from one glossary to another. -/
def move (listings : Listings) (former current : GlossaryId) (index : Nat) : Listings :=
  if former = current then listings else (listings.remove former index).add current index

end Listings

/-- Nodes, edges and indexes. -/
structure IndexedGraph where
  nodes : List Term := []
  arcs : List Arc := []
  /-- The node of each identity. -/
  ids : Table Nat := .empty
  /-- The node that each fully qualified name leads to. -/
  names : Table Nat := .empty
  listings : Listings := .empty
  glossaries : Table Glossary := .empty
deriving Inhabited

namespace IndexedGraph

/-- The graph without terms. -/
def empty : IndexedGraph := {}

/-! ## Terms -/

/-- The index of the node of an identity. -/
def index? (g : IndexedGraph) (id : TermId) : Option Nat := g.ids.get? id.text

/-- The term of an identity. -/
def term? (g : IndexedGraph) (id : TermId) : Option Term := (g.index? id).bind (g.nodes[·]?)

/-- The term that a fully qualified name leads to. -/
def termByName? (g : IndexedGraph) (name : String) : Option Term :=
  (g.names.get? name).bind (g.nodes[·]?)

/-- Adds or replaces a glossary. -/
def addGlossary (g : IndexedGraph) (glossary : Glossary) : IndexedGraph :=
  { g with glossaries := g.glossaries.insert glossary.id.text glossary }

/-- The glossary of an identity. -/
def glossary? (g : IndexedGraph) (id : GlossaryId) : Option Glossary := g.glossaries.get? id.text

/-- Lets a node give up one name for another. -/
def renamed (names : Table Nat) (former current : String) (index : Nat) : Table Nat :=
  if former = current then names else (names.erase former).insert current index

/-- Puts a term in the place of another one. -/
def replaceTerm (g : IndexedGraph) (index : Nat) (previous t : Term) : IndexedGraph :=
  { g with
    nodes := g.nodes.set index t
    names := renamed g.names previous.fullName t.fullName index
    listings := g.listings.move previous.glossary t.glossary index }

/-- Adds a node for a term. -/
def appendTerm (g : IndexedGraph) (t : Term) : IndexedGraph :=
  { g with
    nodes := g.nodes ++ [t]
    ids := g.ids.insert t.id.text g.nodes.length
    names := g.names.insert t.fullName g.nodes.length
    listings := g.listings.add t.glossary g.nodes.length }

/-- Adds a term, or replaces the term of the same identity. -/
def addTerm (g : IndexedGraph) (t : Term) : IndexedGraph :=
  match g.index? t.id with
  | some index =>
    match g.nodes[index]? with
    | some previous => g.replaceTerm index previous t
    | none => g -- No index leads nowhere.
  | none => g.appendTerm t

/-- Marks a term as deleted and says whether there is one. -/
def markDeleted (g : IndexedGraph) (id : TermId) : Bool × IndexedGraph :=
  match g.index? id with
  | some index =>
    (true, { g with nodes := g.nodes.modify index fun t => { t with deleted := true } })
  | none => (false, g)

/-- The live terms of a glossary by name. -/
def members (g : IndexedGraph) (id : GlossaryId) : List Term :=
  (((g.listings.under id).filterMap (g.nodes[·]?)).filter (!·.deleted)).mergeSort
    fun a b => decide (a.fullName ≤ b.fullName)

/-! ## Edges -/

/-- The arc of an edge, if its ends are known. -/
def arcOf? (g : IndexedGraph) (e : Edge) : Option Arc := do
  return { source := ← g.index? e.source, target := ← g.index? e.target, type := e.type }

/-- The place of an arc among the stored ones. -/
def place? (g : IndexedGraph) (arc : Arc) : Option Nat := g.arcs.findIdx? (· = arc)

/-- Whether an edge is stored. -/
def containsEdge (g : IndexedGraph) (e : Edge) : Bool :=
  match g.arcOf? e with
  | some arc => (g.place? arc).isSome
  | none => false

/-- Adds an edge and says whether it is new; none if an end is unknown. -/
def addEdge? (g : IndexedGraph) (e : Edge) : Option (Bool × IndexedGraph) := do
  let arc ← g.arcOf? e
  if (g.place? arc).isSome then return (false, g)
  return (true, { g with arcs := g.arcs ++ [arc] })

/-- Removes an edge and says whether it was there. -/
def removeEdge (g : IndexedGraph) (e : Edge) : Bool × IndexedGraph :=
  match (g.arcOf? e).bind g.place? with
  | some index => (true, { g with arcs := swapRemove g.arcs index })
  | none => (false, g)

/-- The edges that leave a term, by type and target. -/
def edgesFrom (g : IndexedGraph) (id : TermId) (filter : TypeFilter) : List Edge :=
  match g.index? id with
  | some index =>
    let leaving := g.arcs.filter fun a => a.source = index && filter.accepts a.type
    (leaving.filterMap fun a => (g.nodes[a.target]?).map fun target =>
      { source := id, target := target.id, type := a.type : Edge }).mergeSort Edge.leByType
  | none => []

/-- The edge of an arc. -/
def edge? (g : IndexedGraph) (a : Arc) : Option Edge := do
  let source ← g.nodes[a.source]?
  let target ← g.nodes[a.target]?
  return { source := source.id, target := target.id, type := a.type }

/-- All edges. -/
def edges (g : IndexedGraph) : List Edge := g.arcs.filterMap g.edge?

end IndexedGraph

/-! ## Calls -/

/-- A call that changes a term graph. -/
inductive GraphCall
  | addGlossary (glossary : Glossary)
  | addTerm (t : Term)
  | markDeleted (id : TermId)
  | addEdge (e : Edge)
  | removeEdge (e : Edge)
deriving DecidableEq, Repr

namespace IndexedGraph

/-- The graph after a call. -/
def call (g : IndexedGraph) : GraphCall → IndexedGraph
  | .addGlossary glossary => g.addGlossary glossary
  | .addTerm t => g.addTerm t
  | .markDeleted id => (g.markDeleted id).2
  | .addEdge e => ((g.addEdge? e).map (·.2)).getD g
  | .removeEdge e => (g.removeEdge e).2

/-- The graph after calls that are made one after the other. -/
def runCalls (g : IndexedGraph) (calls : List GraphCall) : IndexedGraph := calls.foldl call g

end IndexedGraph

end Thesaurus
