import Thesaurus.Store.Basic
import Thesaurus.Text.Cut

/-!
# The ordered store

A store in four tables of ordered keys: terms by identity, identities by fully
qualified name, glossaries by identity, and edges by edge key.

An edge is kept under one key: source, type and target with a separator between.
Keys of one source lie together, and within them the keys of one type, so the edges
of a term are found by a scan of the keys that begin with a stem; a filter of a
single type makes the stem longer. The separator may not occur in the identities of
terms that are stored, and type names have no room for it. It may occur in the target
of a key that is looked up; cutting at the first two separators only keeps such a
target whole.

Every time a term is written it claims its fully qualified name. Deleting a term
is writing it with the mark, so it claims the name as well.

## Main results

* `Edge.ofKey?_key`: an edge is read back from its key.
-/

namespace Thesaurus

/-! ## Edge keys -/

/-- The character between the parts of a key. -/
def keySeparator : Char := '\x1f'

/-- Whether an identity may be stored. -/
def TermId.isStorable (id : TermId) : Bool := !id.text.toList.contains keySeparator

namespace Edge

/-- What the keys of all edges of a source begin with. -/
def sourceStem (source : TermId) : List Char := source.text.toList ++ [keySeparator]

/-- What the keys of all edges of a source and a type begin with. -/
def typeStem (source : TermId) (type : String) : List Char :=
  sourceStem source ++ type.toList ++ [keySeparator]

/-- The key of an edge. -/
def key (e : Edge) : String := .ofList (typeStem e.source e.type ++ e.target.text.toList)

/-- The edge of a key. -/
def ofKey? (key : String) : Option Edge := do
  let (source, rest) ← Text.cutFirst keySeparator key.toList
  let (type, target) ← Text.cutFirst keySeparator rest
  return { source := ⟨.ofList source⟩, target := ⟨.ofList target⟩, type := .ofList type }

theorem ofKey?_key {e : Edge} (hsource : keySeparator ∉ e.source.text.toList)
    (htype : keySeparator ∉ e.type.toList) : ofKey? e.key = some e := by
  simp [ofKey?, key, typeStem, sourceStem, Text.cutFirst_append hsource,
    Text.cutFirst_append htype]

end Edge

/-! ## Tables -/

/-- A store of ordered tables. -/
structure OrderedStore where
  terms : Table Term := .empty
  names : Table TermId := .empty
  glossaries : Table Glossary := .empty
  edgeKeys : Table Unit := .empty
deriving Inhabited

namespace OrderedStore

/-- The store without terms. -/
def empty : OrderedStore := {}

/-! ## Terms -/

/-- The term of an identity. -/
def term? (s : OrderedStore) (id : TermId) : Option Term := s.terms.get? id.text

/-- Adds or replaces a glossary. -/
def putGlossary (s : OrderedStore) (g : Glossary) : OrderedStore :=
  { s with glossaries := s.glossaries.insert g.id.text g }

/-- Writes a term over the term of the same identity, which gives up its name if
the name changes. -/
def putTerm (s : OrderedStore) (t : Term) : OrderedStore :=
  let names :=
    match s.term? t.id with
    | some previous =>
      if previous.fullName = t.fullName then s.names else s.names.erase previous.fullName
    | none => s.names
  { s with terms := s.terms.insert t.id.text t, names := names.insert t.fullName t.id }

/-- The term that a fully qualified name leads to. -/
def termByName? (s : OrderedStore) (name : String) : Option Term := (s.names.get? name).bind s.term?

/-- The live terms of a glossary; of terms with one name the smaller identity
comes first. -/
def members (s : OrderedStore) (id : GlossaryId) : List Term :=
  (s.terms.values.filter fun t => t.glossary = id && !t.deleted).mergeSort
    fun a b => decide (a.fullName ≤ b.fullName)

/-! ## Edges -/

/-- The edges of the keys that begin with a stem, in the order of the keys. -/
def scan (s : OrderedStore) (stem : List Char) : List Edge :=
  (s.edgeKeys.keys.filter fun k => stem.isPrefixOf k.toList).filterMap Edge.ofKey?

/-- All edges in the order of their keys. -/
def allEdges (s : OrderedStore) : List Edge := s.edgeKeys.keys.filterMap Edge.ofKey?

/-- What the keys of the edges of a term begin with, given a filter. -/
def stemFor (id : TermId) : TypeFilter → List Char
  | [only] => Edge.typeStem id only
  | _ => Edge.sourceStem id

/-- The edges that leave a term and pass the filter. -/
def edgesFrom (s : OrderedStore) (id : TermId) (filter : TypeFilter) : List Edge :=
  (s.scan (stemFor id filter)).filter fun e => filter.accepts e.type

/-- Adds an edge and says whether it is new. -/
def insertEdge (s : OrderedStore) (e : Edge) : Bool × OrderedStore :=
  (!s.edgeKeys.contains e.key, { s with edgeKeys := s.edgeKeys.insert e.key () })

/-- Removes an edge and says whether it was there. -/
def eraseEdge (s : OrderedStore) (e : Edge) : Bool × OrderedStore :=
  (s.edgeKeys.contains e.key, { s with edgeKeys := s.edgeKeys.erase e.key })

/-- Why an identity cannot be the end of an edge. -/
def endError? (s : OrderedStore) (id : TermId) : Option StoreError :=
  if !id.isStorable then some (.invalidId id.text)
  else if (s.term? id).isNone then some (.notFound id.text)
  else none

/-- Why an edge cannot be added; the source is looked at first. -/
def edgeError? (s : OrderedStore) (e : Edge) : Option StoreError :=
  (s.endError? e.source).or (s.endError? e.target)

/-- The first error of the edges to be added. -/
def firstError? (s : OrderedStore) (ops : List EdgeOp) : Option StoreError :=
  ops.findSome? fun
    | .add e => s.edgeError? e
    | .remove _ => none

/-- Applies one write. -/
def write (s : OrderedStore) : EdgeOp → Bool × OrderedStore
  | .add e => s.insertEdge e
  | .remove e => s.eraseEdge e

/-- Applies writes in their order. -/
def writeAll (s : OrderedStore) : List EdgeOp → List Bool × OrderedStore
  | [] => ([], s)
  | op :: rest =>
    let (changed, s) := s.write op
    let (flags, s) := writeAll s rest
    (changed :: flags, s)

/-- A call that replaces the store and reports something about it. -/
def transition {α : Type} (step : OrderedStore → α × OrderedStore) : StoreM OrderedStore α := do
  let (a, s) := step (← get)
  set s
  return a

/-- Writes a term whose identity may be stored. -/
def storeTerm (t : Term) : StoreM OrderedStore Unit := do
  if t.id.isStorable then set ((← get).putTerm t) else StoreM.refuse (.invalidId t.id.text)

/-- Marks a term as deleted. -/
def deleteTerm (id : TermId) : StoreM OrderedStore Unit := do
  match (← get).term? id with
  | some t => storeTerm { t with deleted := true }
  | none => StoreM.refuse (.notFound id.text)

end OrderedStore

instance : Store OrderedStore where
  term id := .view (·.term? id)
  termByName name := .view (·.termByName? name)
  glossary id := .view (·.glossaries.get? id.text)
  members id := .view (·.members id)
  addEdge e := do
    match (← get).edgeError? e with
    | some error => StoreM.refuse error
    | none => OrderedStore.transition (·.insertEdge e)
  removeEdge e := OrderedStore.transition (·.eraseEdge e)
  edgesFrom id filter := .view (·.edgesFrom id filter)
  edges := .view (·.allEdges)
  apply ops := do
    match (← get).firstError? ops with
    | some error => StoreM.refuse error
    | none => OrderedStore.transition (·.writeAll ops)
  usage := .view fun s => countTypes s.allEdges

end Thesaurus
