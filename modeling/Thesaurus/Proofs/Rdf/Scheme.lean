import Thesaurus.Proofs.Relations.Requests
import Thesaurus.Proofs.Store.Directory
import Thesaurus.Rdf.Scheme

/-!
# What an export states

An export only looks at the store. What it states is therefore a function of the
state: of the record of the glossary, of its members, and of the edges that leave
them for live terms.

## Main definitions

* `Store.glossaryRecord`: the record of a glossary.
* `Exporter.edgeStatements`: the statements of one edge, read off the records.
* `Exporter.statements`: the statements about a glossary.

## Main results

* `Exporter.triples_run`, `Exporter.document_run`: exports come to these.
-/

namespace Thesaurus

open Store LawfulStore Rdf

/-! ## Calls and requests in exports -/

section Parts

variable {σ : Type}

theorem ExportM.ofStore_run {α : Type} {act : StoreM σ α} {s s' : σ} {a : α}
    (h : act.run s = (.ok a, s')) : (ExportM.ofStore act).run s = (.ok a, s') := by
  unfold ofStore
  rw [ExceptT.run_mk]
  simp only [h]

theorem ExportM.ofRequest_run {α : Type} {act : RelationM σ α} {s s' : σ} {a : α}
    (h : act.run s = (.ok a, s')) : (ExportM.ofRequest act).run s = (.ok a, s') := by
  unfold ofRequest
  rw [ExceptT.run_mk]
  simp only [h]

/-- The record of a glossary. -/
def Store.glossaryRecord [Store σ] (s : σ) (id : GlossaryId) : Option Glossary :=
  ((Store.glossary id).answer? s).join

end Parts

variable {σ : Type} [EditableStore σ] [LawfulStore σ]

theorem Store.glossary_run (s : σ) (id : GlossaryId) :
    (Store.glossary id).run s = (.ok (glossaryRecord s id), s) := by
  obtain ⟨found, hfound⟩ := looks_glossary id s
  rw [hfound, glossaryRecord, StoreM.answer?, hfound]
  rfl

theorem Store.members_run (s : σ) (id : GlossaryId) :
    (Store.members id).run s = (.ok (membersOf s id), s) := by
  obtain ⟨members, hmembers⟩ := looks_members id s
  rw [hmembers, membersOf, StoreM.answer?, hmembers]
  rfl

namespace Exporter

variable (x : Exporter)

/-- The statements of one edge: none unless its type is registered and its target
live. -/
def edgeStatements (s : σ) (e : Edge) : List Triple :=
  match x.registry.get? e.type, liveRecord s e.target with
  | some type, some target => x.relationTriples e.source type target
  | _, _ => []

/-- The statements of the relations that leave a term. -/
def relationStatements (s : σ) (id : TermId) : List Triple :=
  (leaving s id []).flatMap (x.edgeStatements s)

/-- The statements about a glossary of this record, with or without relations. -/
def statements (s : σ) (id : GlossaryId) (g : Glossary) (withRelations : Bool) : TripleSet :=
  let members := membersOf s id
  let related := if withRelations then members.flatMap fun t => x.relationStatements s t.id else []
  .ofList (x.schemeTriples g ++ members.flatMap (x.conceptTriples g members withRelations)
    ++ related)

theorem edgeTriples_run (s : σ) (e : Edge) :
    (x.edgeTriples e).run s = (.ok (x.edgeStatements s e), s) := by
  unfold edgeTriples edgeStatements
  cases x.registry.get? e.type with
  | none => rfl
  | some type =>
      rw [run_bind_ok (ExportM.ofStore_run (term_run s e.target)), liveRecord]
      cases (record s e.target).bind Term.live? with
      | none => rfl
      | some target => rfl

theorem relationsOfTerm_run (s : σ) (t : Term) :
    (x.relationsOfTerm t).run s = (.ok (x.relationStatements s t.id), s) := by
  unfold relationsOfTerm
  rw [run_bind_ok (ExportM.ofStore_run (edgesFrom_run s t.id [])),
    run_bind_ok (run_mapM_ok _ fun e _ => x.edgeTriples_run s e), run_pure]
  rfl

/-- An export states what there is to state, or finds no record of the glossary. -/
theorem triples_run (s : σ) (id : GlossaryId) (withRelations : Bool) :
    (x.triples id withRelations).run s =
      match glossaryRecord s id with
      | some g => (.ok (x.statements s id g withRelations), s)
      | none => (.error (.glossaryNotFound id), s) := by
  unfold triples
  rw [run_bind_ok (ExportM.ofStore_run (glossary_run s id))]
  cases glossaryRecord s id with
  | none => rfl
  | some g =>
      show ExceptT.run (ExportM.ofStore (Store.members id) >>= _) s = _
      rw [run_bind_ok (ExportM.ofStore_run (members_run s id))]
      cases withRelations with
      | false => rfl
      | true =>
          have hrelated := run_mapM_ok (membersOf s id) fun t _ => x.relationsOfTerm_run s t
          show ExceptT.run ((membersOf s id).mapM x.relationsOfTerm >>= _) s = _
          rw [run_bind_ok hrelated, run_pure]
          rfl

theorem document_run (s : σ) (id : GlossaryId) (format : Format) (withRelations : Bool) :
    (x.document id format withRelations).run s =
      match glossaryRecord s id with
      | some g => (.ok (write (x.statements s id g withRelations) format), s)
      | none => (.error (.glossaryNotFound id), s) := by
  have hrun := x.triples_run s id withRelations
  unfold document
  cases hglossary : glossaryRecord s id with
  | some g =>
      rw [hglossary] at hrun
      rw [run_bind_ok hrun, run_pure]
  | none =>
      rw [hglossary] at hrun
      rw [run_bind_error hrun]

end Exporter

end Thesaurus
