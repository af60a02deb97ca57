import Mathlib.Data.Finset.Card
import Thesaurus.Store.Ordered
import Thesaurus.Store.TermGraph

/-!
# What a store shows

Theorems about stores speak of what the calls of a store answer, never of how it
keeps its data. This file names those answers, and the writing calls by which the
states of a store come about.

## Main definitions

* `Store.record`, `Store.links`, `Store.leaving`: terms and edges as answered.
* `SameTerms`: two states that answer every question about terms alike.
* `EditableStore`, `Write`, `Built`: the states that calls can bring about.
-/

namespace Thesaurus

/-! ## Answers -/

/-- What a call answers in a state, unless it comes to nothing. -/
def StoreM.answer? {σ α : Type} (act : StoreM σ α) (s : σ) : Option α :=
  (act.run s).1.toOption

/-- A call that always answers and changes nothing. -/
def StoreM.Looks {σ α : Type} (act : StoreM σ α) : Prop :=
  ∀ s, ∃ a, act.run s = (.ok a, s)

theorem StoreM.looks_view {σ α : Type} (f : σ → α) : (StoreM.view f).Looks :=
  fun s => ⟨f s, rfl⟩

theorem Term.live?_eq_some_iff {t u : Term} : t.live? = some u ↔ t = u ∧ t.deleted = false := by
  unfold Term.live?
  cases hdeleted : t.deleted with
  | true => simp
  | false => simp

theorem Term.any_not_deleted (found : Option Term) :
    (found.any fun t => !t.deleted) = (found.bind Term.live?).isSome := by
  cases found with
  | none => rfl
  | some t => cases hdeleted : t.deleted <;> simp [Term.live?, hdeleted]

namespace Store

variable {σ : Type} [Store σ]

/-- The term of an identity, deleted or live. -/
def record (s : σ) (id : TermId) : Option Term := ((Store.term id).answer? s).join

/-- The live term of an identity. -/
def liveRecord (s : σ) (id : TermId) : Option Term := (record s id).bind Term.live?

theorem liveRecord_eq_some_iff {s : σ} {id : TermId} {t : Term} :
    liveRecord s id = some t ↔ record s id = some t ∧ t.deleted = false := by
  unfold liveRecord
  rw [Option.bind_eq_some_iff]
  constructor
  · rintro ⟨u, hu, hlive⟩
    obtain ⟨rfl, hdeleted⟩ := Term.live?_eq_some_iff.1 hlive
    exact ⟨hu, hdeleted⟩
  · rintro ⟨ht, hdeleted⟩
    exact ⟨t, ht, Term.live?_eq_some_iff.2 ⟨rfl, hdeleted⟩⟩

/-- The set of stored edges. -/
def links (s : σ) : Finset Edge := ((Store.edges.answer? s).getD []).toFinset

/-- The edges that leave a term, in the order in which they are listed. -/
def leaving (s : σ) (id : TermId) (filter : TypeFilter) : List Edge :=
  ((Store.edgesFrom id filter).answer? s).getD []

/-- Two states that answer every question about terms and glossaries alike. -/
structure SameTerms (s s' : σ) : Prop where
  term : ∀ id, (Store.term id).answer? s' = (Store.term id).answer? s
  termByName : ∀ name, (Store.termByName name).answer? s' = (Store.termByName name).answer? s
  glossary : ∀ id, (Store.glossary id).answer? s' = (Store.glossary id).answer? s
  members : ∀ id, (Store.members id).answer? s' = (Store.members id).answer? s

namespace SameTerms

variable {s s' s'' : σ}

theorem refl (s : σ) : SameTerms s s := ⟨fun _ => rfl, fun _ => rfl, fun _ => rfl, fun _ => rfl⟩

theorem trans (h : SameTerms s s') (h' : SameTerms s' s'') : SameTerms s s'' where
  term id := (h'.term id).trans (h.term id)
  termByName name := (h'.termByName name).trans (h.termByName name)
  glossary id := (h'.glossary id).trans (h.glossary id)
  members id := (h'.members id).trans (h.members id)

theorem record_eq (h : SameTerms s s') (id : TermId) : record s' id = record s id := by
  rw [record, h.term, record]

theorem liveRecord_eq (h : SameTerms s s') (id : TermId) :
    liveRecord s' id = liveRecord s id := by
  rw [liveRecord, h.record_eq, liveRecord]

end SameTerms

end Store

/-! ## How states come about -/

/-- A store whose terms and glossaries can be written. -/
class EditableStore (σ : Type) extends Store σ where
  /-- The store that holds nothing. -/
  empty : σ
  putGlossary (g : Glossary) : StoreM σ Unit
  putTerm (t : Term) : StoreM σ Unit
  deleteTerm (id : TermId) : StoreM σ Unit

instance : EditableStore TermGraph where
  empty := .empty
  putGlossary g := modify (·.addGlossary g)
  putTerm t := modify (·.addTerm t)
  deleteTerm := TermGraph.deleteTerm

instance : EditableStore OrderedStore where
  empty := .empty
  putGlossary g := modify (·.putGlossary g)
  putTerm := OrderedStore.storeTerm
  deleteTerm := OrderedStore.deleteTerm

/-- A call that writes terms or glossaries. -/
inductive Edit
  | putGlossary (g : Glossary)
  | putTerm (t : Term)
  | deleteTerm (id : TermId)
deriving DecidableEq, Repr

/-- A call that writes to a store. -/
inductive Write
  | edit (x : Edit)
  | addEdge (e : Edge)
  | removeEdge (e : Edge)
  | apply (ops : List EdgeOp)
deriving DecidableEq, Repr

section Writes

variable {σ : Type} [EditableStore σ]

/-- The state after a call, whether it succeeds or fails. -/
def Edit.run (x : Edit) (s : σ) : σ :=
  match x with
  | .putGlossary g => ((EditableStore.putGlossary g).run s).2
  | .putTerm t => ((EditableStore.putTerm t).run s).2
  | .deleteTerm id => ((EditableStore.deleteTerm id).run s).2

/-- The state after a call, whether it succeeds or fails. -/
def Write.run (w : Write) (s : σ) : σ :=
  match w with
  | .edit x => x.run s
  | .addEdge e => ((Store.addEdge e).run s).2
  | .removeEdge e => ((Store.removeEdge e).run s).2
  | .apply ops => ((Store.apply ops).run s).2

/-- The states that calls to a store bring about. -/
inductive Built : σ → Prop
  | empty : Built EditableStore.empty
  | write {s : σ} (w : Write) (h : Built s) : Built (w.run s)

theorem Built.writes (ws : List Write) :
    ∀ s : σ, Built s → Built (ws.foldl (fun s w => w.run s) s) := by
  induction ws with
  | nil => intro s hs; exact hs
  | cons w rest ih => intro s hs; exact ih (w.run s) (.write w hs)

end Writes

end Thesaurus
