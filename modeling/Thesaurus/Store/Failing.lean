import Thesaurus.Store.TermGraph

/-!
# A store that can be made to fail

The store in memory behind scheduled failures: each of the eight calls that every
store has to answer can be made to fail from some call on. The three calls with a
meaning of their own are left to that meaning, so a batch is applied one write at
a time and can break off in the middle.
-/

namespace Thesaurus

/-- The calls that can be made to fail. -/
inductive StoreCall
  | term
  | termByName
  | glossary
  | members
  | addEdge
  | removeEdge
  | edgesFrom
  | edges
deriving DecidableEq, Repr

/-- A failure to come: after this many calls that succeed, every call fails. -/
structure Outage where
  remaining : Nat
  fault : Fault
deriving DecidableEq, Repr

/-- A term graph behind scheduled failures. -/
structure FailingStore where
  graph : TermGraph := {}
  outages : List (StoreCall × Outage) := []
deriving Inhabited

namespace FailingStore

/-- Replaces what is scheduled for a call. -/
def schedule (s : FailingStore) (call : StoreCall) (outage : Option Outage) : FailingStore :=
  let others := s.outages.filter (·.1 ≠ call)
  { s with outages := (outage.map fun o => (call, o)).toList ++ others }

/-- Counts a call down, or fails it. -/
def admitCall (call : StoreCall) : StoreM FailingStore Unit := do
  let s ← get
  match s.outages.lookup call with
  | none => return ()
  | some { remaining := 0, fault } => throw fault
  | some { remaining := left + 1, fault } =>
    set (s.schedule call (some { remaining := left, fault := fault }))

/-- Runs a call on the graph. -/
def onGraph {α : Type} (act : StoreM TermGraph α) : StoreM FailingStore α :=
  ExceptT.mk fun s =>
    let (result, graph) := act.run s.graph
    (result, { s with graph := graph })

/-- Runs a call on the graph unless it is to fail. -/
def guarded {α : Type} (call : StoreCall) (act : StoreM TermGraph α) : StoreM FailingStore α := do
  admitCall call
  onGraph act

end FailingStore

instance : Store FailingStore where
  term id := FailingStore.guarded .term (Store.term id)
  termByName name := FailingStore.guarded .termByName (Store.termByName name)
  glossary id := FailingStore.guarded .glossary (Store.glossary id)
  members id := FailingStore.guarded .members (Store.members id)
  addEdge e := FailingStore.guarded .addEdge (Store.addEdge e)
  removeEdge e := FailingStore.guarded .removeEdge (Store.removeEdge e)
  edgesFrom id filter := FailingStore.guarded .edgesFrom (Store.edgesFrom id filter)
  edges := FailingStore.guarded .edges Store.edges

end Thesaurus
