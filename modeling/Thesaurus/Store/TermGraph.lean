import Thesaurus.Store.Basic

/-!
# The term graph

Terms as nodes and edges between them, all in memory. Nodes are never taken out:
a deleted term is only marked, so the index of a node stays what it was.

A fully qualified name leads to the term that claimed it last. A term claims its
name when it is added and whenever its name changes, and gives its former name
up when it changes; adding a term again under the same name claims nothing.

The members of a glossary are listed in the order of their fully qualified names;
of terms with one name those that joined the glossary earlier come first.

The graph is the store in memory. A batch of writes is applied as a whole: the ends of
all edges to be added are checked first, so a batch that fails has written nothing.
-/

namespace Thesaurus

/-- A node: a term, and its place in the order in which terms joined glossaries. -/
structure Node where
  term : Term
  joined : Nat
deriving DecidableEq, Repr, Inhabited

/-- Terms, glossaries and edges. -/
structure TermGraph where
  /-- The nodes in the order in which they were first added. -/
  nodes : List Node := []
  /-- The next place in the order of joining. -/
  nextJoin : Nat := 0
  /-- The term that each fully qualified name leads to. -/
  names : Table TermId := .empty
  glossaries : Table Glossary := .empty
  /-- The edges, each once. -/
  edges : List Edge := []
deriving Inhabited

namespace TermGraph

/-- The graph without terms. -/
def empty : TermGraph := {}

/-! ## Terms -/

/-- The node of an identity. -/
def node? (g : TermGraph) (id : TermId) : Option Node := g.nodes.find? (·.term.id == id)

/-- The term of an identity. -/
def term? (g : TermGraph) (id : TermId) : Option Term := (g.node? id).map (·.term)

/-- Whether the identity is known. -/
def knows (g : TermGraph) (id : TermId) : Bool := (g.node? id).isSome

/-- The index of the node of an identity, which counts the nodes before it. -/
def indexOf (g : TermGraph) (id : TermId) : Nat := g.nodes.findIdx (·.term.id == id)

/-- The term that a fully qualified name leads to. -/
def termByName? (g : TermGraph) (name : String) : Option Term := (g.names.get? name).bind g.term?

/-- Adds or replaces a glossary. -/
def addGlossary (g : TermGraph) (glossary : Glossary) : TermGraph :=
  { g with glossaries := g.glossaries.insert glossary.id.text glossary }

/-- The glossary of an identity. -/
def glossary? (g : TermGraph) (id : GlossaryId) : Option Glossary := g.glossaries.get? id.text

/-- Changes the node of an identity. -/
def updateNode (g : TermGraph) (id : TermId) (f : Node → Node) : TermGraph :=
  { g with nodes := g.nodes.map fun n => if n.term.id = id then f n else n }

/-- Adds a term, or replaces the term of the same identity. -/
def addTerm (g : TermGraph) (t : Term) : TermGraph :=
  match g.term? t.id with
  | some previous =>
    let g :=
      if previous.fullName = t.fullName then g
      else { g with names := (g.names.erase previous.fullName).insert t.fullName t.id }
    if previous.glossary = t.glossary then g.updateNode t.id fun n => { n with term := t }
    else
      { g.updateNode t.id fun _ => { term := t, joined := g.nextJoin } with
        nextJoin := g.nextJoin + 1 }
  | none =>
    { g with
      nodes := g.nodes ++ [{ term := t, joined := g.nextJoin }]
      nextJoin := g.nextJoin + 1
      names := g.names.insert t.fullName t.id }

/-- Marks a term as deleted; none if there is no such term. -/
def markDeleted? (g : TermGraph) (id : TermId) : Option TermGraph :=
  if g.knows id then
    some (g.updateNode id fun n => { n with term := { n.term with deleted := true } })
  else none

/-- The order of the members of a glossary. -/
def memberLe (a b : Node) : Bool :=
  if a.term.fullName ≠ b.term.fullName then decide (a.term.fullName < b.term.fullName)
  else decide (a.joined ≤ b.joined)

/-- The live terms of a glossary. -/
def members (g : TermGraph) (id : GlossaryId) : List Term :=
  ((g.nodes.filter fun n => n.term.glossary = id && !n.term.deleted).mergeSort memberLe).map
    (·.term)

/-! ## Edges -/

/-- Whether an edge is stored. -/
def containsEdge (g : TermGraph) (e : Edge) : Bool := g.edges.contains e

/-- Whether both ends of an edge are known. -/
def knowsEnds (g : TermGraph) (e : Edge) : Bool := g.knows e.source && g.knows e.target

/-- Adds an edge and says whether it is new; none if an end is unknown. -/
def addEdge? (g : TermGraph) (e : Edge) : Option (Bool × TermGraph) :=
  if !g.knowsEnds e then none
  else if g.containsEdge e then some (false, g)
  else some (true, { g with edges := g.edges ++ [e] })

/-- Removes an edge and says whether it was there. -/
def removeEdge (g : TermGraph) (e : Edge) : Bool × TermGraph :=
  (g.containsEdge e, { g with edges := g.edges.erase e })

/-- The edges that leave a term, by type and target. -/
def edgesFrom (g : TermGraph) (id : TermId) (filter : TypeFilter) : List Edge :=
  (g.edges.filter fun e => e.source = id && filter.accepts e.type).mergeSort Edge.leByType

/-! ## The store in memory -/

/-- The error of an edge with an unknown end: the source is named first. -/
def unknownEnd (g : TermGraph) (e : Edge) : StoreError :=
  .notFound (if g.knows e.source then e.target.text else e.source.text)

/-- The first edge to be added that has an unknown end, as an error. -/
def firstUnknownEnd? (g : TermGraph) (ops : List EdgeOp) : Option StoreError :=
  ops.findSome? fun
    | .add e => if g.knowsEnds e then none else some (g.unknownEnd e)
    | .remove _ => none

/-- Applies one write whose ends have been checked. -/
def write (g : TermGraph) : EdgeOp → Bool × TermGraph
  | .add e => (g.addEdge? e).getD (false, g)
  | .remove e => g.removeEdge e

/-- Applies writes in their order. -/
def writeAll (g : TermGraph) : List EdgeOp → List Bool × TermGraph
  | [] => ([], g)
  | op :: rest =>
    let (changed, g) := g.write op
    let (flags, g) := writeAll g rest
    (changed :: flags, g)

/-- Marks a term as deleted. -/
def deleteTerm (id : TermId) : StoreM TermGraph Unit := do
  match (← get).markDeleted? id with
  | some g => set g
  | none => StoreM.refuse (.notFound id.text)

/-- A call that replaces the graph and reports something about it. -/
def transition {α : Type} (step : TermGraph → α × TermGraph) : StoreM TermGraph α := do
  let (a, g) := step (← get)
  set g
  return a

end TermGraph

instance : Store TermGraph where
  term id := .view (·.term? id)
  termByName name := .view (·.termByName? name)
  glossary id := .view (·.glossary? id)
  members id := .view (·.members id)
  addEdge e := do
    let g ← get
    match g.addEdge? e with
    | some (added, g) => set g; return added
    | none => StoreM.refuse (g.unknownEnd e)
  removeEdge e := TermGraph.transition (·.removeEdge e)
  edgesFrom id filter := .view (·.edgesFrom id filter)
  edges := .view (·.edges)
  apply ops := do
    match (← get).firstUnknownEnd? ops with
    | some error => StoreM.refuse error
    | none => TermGraph.transition (·.writeAll ops)

end Thesaurus
