import Thesaurus.Store.Basic

/-!
# Relations

Adding, removing and listing typed relations. A request is checked against the
registry and the terms first; then the edge and the edge it implies go to the
store as one batch. A request that is refused has written nothing.

Every call to the store is given a time limit. A store that never answers, and
one that is unavailable, are reported as an error that is worth a retry; all
other errors are the caller's.

## Main definitions

* `Relations.validate`: whether a relation may be added.
* `Relations.add`, `Relations.remove`: the two mutations.
* `Relations.relationsOf`, `Relations.usage`: what is there.
-/

namespace Thesaurus

/-- Why a request about relations is refused. -/
inductive RelationError
  | invalidType (name : String)
  | termNotFound (id : TermId)
  | selfRelation (id : TermId)
  /-- The type links terms of one glossary only. -/
  | crossesGlossaries (type : String) (source target : GlossaryId)
  | unavailable (reason : String)
deriving DecidableEq, Repr, Inhabited

namespace RelationError

/-- The sentence for an error. -/
def message : RelationError → String
  | .invalidType name => "Invalid relation type: " ++ name
  | .termNotFound id => "Term not found: " ++ id.text
  | .selfRelation id => "A term cannot be related to itself: " ++ id.text
  | .crossesGlossaries type source target =>
    "Relation type '" ++ type ++ "' cannot link glossary " ++ source.text ++ " to glossary "
      ++ target.text
  | .unavailable reason => "Relation store unavailable: " ++ reason

/-- Whether the same request may succeed later. -/
def isRetryable : RelationError → Bool
  | .unavailable _ => true
  | _ => false

/-- What an error of the store means to whoever made the request. -/
def ofStore : StoreError → RelationError
  | .notFound id | .invalidId id => .termNotFound ⟨id⟩
  | error@(.unavailable _) => .unavailable error.message

end RelationError

/-- A computation on a store that answers requests about relations. -/
abbrev RelationM (σ : Type) := ExceptT RelationError (StateM σ)

/-- What requests are answered by: the registry, and the time limit of a store
call in milliseconds. -/
structure Relations where
  registry : Registry
  timeout : Nat := 5000

/-- What a mutation did. -/
structure Outcome where
  /-- The edge of the request, and the edge it implies. -/
  edges : List Edge
  /-- How many of them were new, or were there to be removed. -/
  changed : Nat
deriving DecidableEq, Repr, Inhabited

/-- Whether nothing changed. -/
def Outcome.isNoop (o : Outcome) : Bool := o.changed == 0

/-- A relation as its source lists it. -/
structure RelatedTerm where
  type : String
  term : TermRef
deriving DecidableEq, Repr, Inhabited

namespace Relations

variable {σ : Type} [Store σ]

/-- What a call that came to nothing means. -/
def failure (r : Relations) : Fault → RelationError
  | .refused error => .ofStore error
  | .stalled =>
    .unavailable ("store call timed out after " ++ .ofList (Nat.toDigits 10 r.timeout) ++ "ms")

/-- Makes a call to the store under the time limit. -/
def call {σ α : Type} (r : Relations) (act : StoreM σ α) : RelationM σ α :=
  ExceptT.mk fun s =>
    match act.run s with
    | (.ok a, s) => (.ok a, s)
    | (.error fault, s) => (.error (r.failure fault), s)

/-- The registered type of a name. -/
def resolveType (r : Relations) (name : String) : RelationM σ RelationType :=
  match r.registry.get? name with
  | some type => return type
  | none => throw (.invalidType name)

/-- The live term of an identity. -/
def requireTerm (r : Relations) (id : TermId) : RelationM σ Term := do
  if !(← r.call (Store.isLive id)) then throw (.termNotFound id)
  match ← r.call (Store.term id) with
  | some t => return t
  | none => throw (.termNotFound id)

/-- Checks whether a relation may be added: its type is registered, its ends are
live and differ, and they share a glossary unless the type may cross. -/
def validate (r : Relations) (source target : TermId) (type : String) :
    RelationM σ RelationType := do
  let type ← r.resolveType type
  let sourceTerm ← r.requireTerm source
  let targetTerm ← r.requireTerm target
  if source = target then throw (.selfRelation source)
  if !type.crossesGlossaries && sourceTerm.glossary ≠ targetTerm.glossary then
    throw (.crossesGlossaries type.name sourceTerm.glossary targetTerm.glossary)
  return type

/-- The edge and what it implies. -/
def plan (r : Relations) (e : Edge) : List Edge := e.plan r.registry

/-- Applies one kind of write to a planned edge, as one batch. -/
def applyPlan (r : Relations) (op : Edge → EdgeOp) (e : Edge) : RelationM σ Outcome := do
  let edges := r.plan e
  let flags ← r.call (Store.apply (edges.map op))
  return { edges := edges, changed := flags.count true }

/-- Relates two terms. A relation that is there already stays, and the outcome
says that nothing changed. -/
def add (r : Relations) (source target : TermId) (type : String) : RelationM σ Outcome := do
  let type ← r.validate source target type
  r.applyPlan .add { source := source, target := target, type := type.name }

/-- Removes the relation of exactly this type between two terms, with what it
implies. The terms need not be live. -/
def remove (r : Relations) (source target : TermId) (type : String) : RelationM σ Outcome := do
  let type ← r.resolveType type
  r.applyPlan .remove { source := source, target := target, type := type.name }

/-- The live term at the end of an edge. -/
def liveTerm? (r : Relations) (id : TermId) : RelationM σ (Option Term) := do
  return (← r.call (Store.term id)).bind Term.live?

/-- The relations that leave a term, without those whose target is gone. -/
def relationsOf (r : Relations) (id : TermId) : RelationM σ (List RelatedTerm) := do
  let _ ← r.requireTerm id
  let edges ← r.call (Store.edgesFrom id [])
  let related ← edges.mapM fun e => do
    return (← r.liveTerm? e.target).map fun t => { type := e.type, term := t.toRef : RelatedTerm }
  return related.reduceOption

/-- The live term that a fully qualified name leads to. -/
def termByName (r : Relations) (name : String) : RelationM σ (Option Term) := do
  return (← r.call (Store.termByName name)).bind Term.live?

/-- How many edges there are of every registered type, by name. -/
def usage (r : Relations) : RelationM σ (Table Nat) := do
  let stored ← r.call Store.usage
  return r.registry.types.foldl
    (fun counts t => counts.insert t.name ((stored.get? t.name).getD 0)) .empty

end Relations

end Thesaurus
