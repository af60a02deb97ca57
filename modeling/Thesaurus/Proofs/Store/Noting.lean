import Thesaurus.Proofs.Relations.Requests

/-!
# A store that notes what it is asked

To say how often a request asks for the edges of a term, the request is run on a store
that keeps a note of each such question and hands every call on. What is answered stays
the same.

## Main definitions

* `Noting`: a store with its notes.

## Main results

* `Noting.edgesFrom_run`, `Noting.liveTerm?_run`: what the calls of a search come to.
-/

namespace Thesaurus

open Store LawfulStore

/-- A store with a note of the terms whose edges it was asked for. -/
structure Noting (σ : Type) where
  store : σ
  /-- The terms in the order of the questions. -/
  asked : List TermId := []

namespace Noting

variable {σ : Type}

/-- The store without notes. -/
def fresh (s : σ) : Noting σ := { store := s }

/-- Adds to the notes. -/
def note (u : Noting σ) (ids : List TermId) : Noting σ := { u with asked := u.asked ++ ids }

theorem note_nil (u : Noting σ) : u.note [] = u := by
  unfold note
  rw [List.append_nil]

theorem note_note (u : Noting σ) (ids later : List TermId) :
    (u.note ids).note later = u.note (ids ++ later) := by
  unfold note
  rw [List.append_assoc]

/-- Hands a call on. -/
def passOn {α : Type} (act : StoreM σ α) : StoreM (Noting σ) α :=
  ExceptT.mk fun u =>
    let (result, s) := act.run u.store
    (result, { u with store := s })

theorem passOn_run {α : Type} {act : StoreM σ α} {u : Noting σ} {a : α} {s : σ}
    (h : act.run u.store = (.ok a, s)) : (passOn act).run u = (.ok a, { u with store := s }) := by
  unfold passOn
  rw [ExceptT.run_mk]
  simp only [h]

end Noting

instance {σ : Type} [Store σ] : Store (Noting σ) where
  term id := Noting.passOn (Store.term id)
  termByName name := Noting.passOn (Store.termByName name)
  glossary id := Noting.passOn (Store.glossary id)
  members id := Noting.passOn (Store.members id)
  addEdge e := Noting.passOn (Store.addEdge e)
  removeEdge e := Noting.passOn (Store.removeEdge e)
  edgesFrom id filter := do
    modify (·.note [id])
    Noting.passOn (Store.edgesFrom id filter)
  edges := Noting.passOn Store.edges
  isLive id := Noting.passOn (Store.isLive id)
  apply ops := Noting.passOn (Store.apply ops)
  usage := Noting.passOn Store.usage

namespace Noting

variable {σ : Type} [EditableStore σ] [LawfulStore σ]

theorem edgesFrom_run (u : Noting σ) (id : TermId) (filter : TypeFilter) :
    (Store.edgesFrom id filter).run u = (.ok (leaving u.store id filter), u.note [id]) := by
  have hnote : (modify (·.note [id]) : StoreM (Noting σ) Unit).run u = (.ok (), u.note [id]) := rfl
  show (_ >>= fun _ => passOn (Store.edgesFrom id filter)).run u = _
  rw [run_bind_ok hnote]
  exact passOn_run (u := u.note [id]) (LawfulStore.edgesFrom_run u.store id filter)

theorem liveTerm?_run (r : Relations) (u : Noting σ) (id : TermId) :
    (r.liveTerm? id).run u = (.ok (liveRecord u.store id), u) := by
  have hterm : (Store.term id).run u = (.ok (record u.store id), u) :=
    passOn_run (term_run u.store id)
  unfold Relations.liveTerm?
  rw [run_bind_ok (r.call_run hterm), run_pure, liveRecord]

end Noting

end Thesaurus
