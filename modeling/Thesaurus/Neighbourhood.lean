import Thesaurus.Relations

/-!
# Neighbourhoods

The graph of all terms that lie within some number of hops from a root, with the
edges that lead there. The search goes level by level: the terms of one level are
expanded in the order in which they were found, and each term is found once, so
cycles are harmless and every edge is met once.

A cap on the number of terms cuts the search short. An edge to a term that is not
found yet is passed over once the cap is reached, and the graph is marked as
truncated; edges between terms that were found are kept.

## Main definitions

* `Relations.neighbourhood`: the graph around a term.
-/

namespace Thesaurus

/-- A term of a neighbourhood. -/
structure Neighbour where
  id : TermId
  label : String
  fullName : String
  /-- Hops from the root. -/
  depth : Nat
  /-- Whether no edge of the graph touches the term. -/
  isolated : Bool
deriving DecidableEq, Repr, Inhabited

/-- The graph around a term. -/
structure Neighbourhood where
  root : TermId
  /-- The terms in the order in which they were found, the root first. -/
  nodes : List Neighbour
  edges : List DrawnEdge
  maxDepth : Nat
  /-- Whether the cap cut the search short. -/
  truncated : Bool
deriving DecidableEq, Repr, Inhabited

/-- Whether a term belongs to the graph. -/
def Neighbourhood.contains (g : Neighbourhood) (id : TermId) : Bool := g.nodes.any (·.id == id)

/-- What a search has found so far. -/
structure Exploration where
  /-- The terms with their depths, in the order in which they were found. -/
  found : List (Term × Nat)
  /-- The edges in the order in which they were met. -/
  links : List Edge := []
  truncated : Bool := false
deriving Inhabited

namespace Exploration

/-- Whether a term has been found. -/
def knows (x : Exploration) (id : TermId) : Bool := x.found.any (·.1.id == id)

/-- Whether the cap admits no further term. -/
def isFull (x : Exploration) (cap : Option Nat) : Bool :=
  match cap with
  | some cap => decide (cap ≤ x.found.length)
  | none => false

/-- Keeps an edge. -/
def link (x : Exploration) (e : Edge) : Exploration := { x with links := x.links ++ [e] }

/-- Adds a term. -/
def discover (x : Exploration) (t : Term) (depth : Nat) : Exploration :=
  { x with found := x.found ++ [(t, depth)] }

/-- Whether an edge that was met touches a term. -/
def touches (x : Exploration) (id : TermId) : Bool :=
  x.links.any fun e => e.source = id || e.target = id

end Exploration

namespace Relations

variable {σ : Type} [Store σ]

/-- Meets one edge that leaves a term of the given depth. -/
def followEdge (r : Relations) (cap : Option Nat) (depth : Nat) (x : Exploration) (e : Edge) :
    RelationM σ Exploration := do
  if x.knows e.target then return x.link e
  else if x.isFull cap then return { x with truncated := true }
  else
    match ← r.liveTerm? e.target with
    | some t => return (x.discover t (depth + 1)).link e
    | none => return x

/-- Expands one term of the given depth. -/
def expandTerm (r : Relations) (filter : TypeFilter) (cap : Option Nat) (depth : Nat)
    (x : Exploration) (id : TermId) : RelationM σ Exploration := do
  let edges ← r.call (Store.edgesFrom id filter)
  edges.foldlM (r.followEdge cap depth) x

/-- Expands the terms of one level, then the terms they led to, for as many levels
as are left. -/
def explore (r : Relations) (filter : TypeFilter) (cap : Option Nat) :
    Nat → Nat → List TermId → Exploration → RelationM σ Exploration
  | 0, _, _, x => return x
  | levels + 1, depth, level, x =>
    if level.isEmpty then return x
    else do
      let next ← level.foldlM (r.expandTerm filter cap depth) x
      let found := (next.found.drop x.found.length).map (·.1.id)
      explore r filter cap levels (depth + 1) found next

/-- The graph of the terms within `maxDepth` hops from a live root along edges
that pass the filter. -/
def neighbourhood (r : Relations) (root : TermId) (maxDepth : Nat) (filter : TypeFilter)
    (cap : Option Nat) : RelationM σ Neighbourhood := do
  if let some unknown := filter.find? fun type => !r.registry.contains type then
    throw (.invalidType unknown)
  let some rootTerm ← r.liveTerm? root | throw (.termNotFound root)
  let x ← r.explore filter cap maxDepth 0 [root] { found := [(rootTerm, 0)] }
  return {
    root := root
    nodes := x.found.map fun (t, depth) =>
      { id := t.id, label := t.label, fullName := t.fullName, depth := depth
        isolated := !x.touches t.id }
    edges := x.links.map (·.drawn r.registry)
    maxDepth := maxDepth
    truncated := x.truncated }

end Relations

end Thesaurus
