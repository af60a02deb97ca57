import Thesaurus.Edge
import Thesaurus.Table
import Thesaurus.Text.Characters

/-!
# Stores

A store keeps terms, glossaries and the edges between terms. Everything above it
works against the class `Store`: eight calls that every store answers, and three
that have a meaning in terms of the others, which a store may answer in a better
way.

A call can fail, or never be answered at all. The state is threaded through
failures too, so that whatever a failing call has already written stays written.

The registry by which requests on a store go may give way to another one, as long as
no type goes of which the store holds edges. How many edges there are of each type is
for the store to say.

## Main definitions

* `Store`: the calls.
* `Registry.replaceOver`: another registry in place of the one of a store.
-/

namespace Thesaurus

/-! ## Calls -/

/-- Why a store refuses a call. -/
inductive StoreError
  /-- There is no term of this identity. -/
  | notFound (id : String)
  | unavailable (reason : String)
  /-- The identity holds a character that stores reserve for themselves. -/
  | invalidId (id : String)
deriving DecidableEq, Repr, Inhabited

/-- The sentence for an error. -/
def StoreError.message : StoreError → String
  | .notFound id => "Term not found: " ++ id
  | .unavailable reason => "Store unavailable: " ++ reason
  | .invalidId id => "Term id contains a reserved character: " ++ Text.quoted id

/-- How a call can come to nothing. -/
inductive Fault
  | refused (error : StoreError)
  /-- The store never answers. -/
  | stalled
deriving DecidableEq, Repr, Inhabited

/-- A call to a store of type `σ`. -/
abbrev StoreM (σ : Type) := ExceptT Fault (StateM σ)

/-- A call that only looks. -/
def StoreM.view {σ α : Type} (f : σ → α) : StoreM σ α := do return f (← get)

/-- A call that fails. -/
def StoreM.refuse {σ α : Type} (error : StoreError) : StoreM σ α := throw (.refused error)

/-- Counts how often each type occurs among edges. -/
def countTypes (edges : List Edge) : Table Nat :=
  edges.foldl (fun counts e => counts.insert e.type ((counts.get? e.type).getD 0 + 1)) .empty

/-- What every store can do. -/
class Store (σ : Type) where
  /-- The term of an identity, deleted or live. -/
  term (id : TermId) : StoreM σ (Option Term)
  /-- The term, deleted or live, that a fully qualified name leads to. -/
  termByName (name : String) : StoreM σ (Option Term)
  glossary (id : GlossaryId) : StoreM σ (Option Glossary)
  /-- The live terms of a glossary, by fully qualified name. -/
  members (id : GlossaryId) : StoreM σ (List Term)
  /-- Stores an edge between known terms; false if it was there. -/
  addEdge (edge : Edge) : StoreM σ Bool
  /-- Removes an edge; false if it was not there. -/
  removeEdge (edge : Edge) : StoreM σ Bool
  /-- The edges that leave a term and pass the filter, by type and target. -/
  edgesFrom (id : TermId) (filter : TypeFilter) : StoreM σ (List Edge)
  /-- All edges, in no particular order. -/
  edges : StoreM σ (List Edge)
  /-- Whether there is a live term of this identity. -/
  isLive (id : TermId) : StoreM σ Bool := do
    return (← term id).any fun t => !t.deleted
  /-- Applies writes, and says of each whether it changed anything. One after the
  other, unless a store can do all or nothing. -/
  apply (ops : List EdgeOp) : StoreM σ (List Bool) :=
    ops.mapM fun
      | .add edge => addEdge edge
      | .remove edge => removeEdge edge
  /-- How many edges there are of each type. -/
  usage : StoreM σ (Table Nat) := do
    return countTypes (← edges)

/-! ## Replacing the registry -/

/-- What a table of counts says of a key; a key that it leaves out counts nothing. -/
def Table.countOf (counts : Table Nat) (key : String) : Nat := (counts.get? key).getD 0

/-- Why the registry of a store is not replaced. -/
inductive ReplacementError
  /-- The store does not say which types are in use. -/
  | store (fault : Fault)
  | registry (error : RegistryError)
deriving DecidableEq, Repr

/-- The registry of these types in place of the one of a store, which is asked for the
types in use. -/
def Registry.replaceOver {σ : Type} [Store σ] (r : Registry) (types : List RelationType)
    (defaultName : String) : ExceptT ReplacementError (StateM σ) Registry := do
  let counts ← ExceptT.adapt ReplacementError.store Store.usage
  ExceptT.mk (pure ((r.replace types defaultName counts.countOf).mapError .registry))

end Thesaurus
