import Thesaurus.Proofs.Store.Batch
import Thesaurus.Proofs.Store.View

/-!
# What a store has to guarantee

The laws on which every theorem about requests rests. A store names two
conditions on its states. The first is kept by every call and makes reading
reliable; the second is kept by everything but raw writes of odd edges, and makes
writing edges reliable. Under both, a batch of writes does to the set of edges
what the writes say, and touches nothing else.

## Main definitions

* `LawfulStore`: the laws.
* `Known`: an identity that has a record.
* `Readable`: a state in which questions about terms are answered.
-/

namespace Thesaurus

namespace Store

/-- Whether an identity has a record, deleted or live. -/
def Known {σ : Type} [Store σ] (s : σ) (id : TermId) : Prop := (record s id).isSome = true

/-- A state in which questions about terms are answered. -/
structure Readable {σ : Type} [Store σ] (s : σ) : Prop where
  term : ∀ id, (Store.term id).run s = (.ok (record s id), s)
  isLive : ∀ id, (Store.isLive id).run s = (.ok (liveRecord s id).isSome, s)

end Store

open Store

/-- The laws of a store that never fails by itself. -/
class LawfulStore (σ : Type) [EditableStore σ] where
  /-- What all calls keep and reading relies on. -/
  Sound : σ → Prop
  /-- What edges must be like for writes to go by the edge. -/
  Regular : σ → Prop
  looks_term (id : TermId) : (Store.term (σ := σ) id).Looks
  looks_termByName (name : String) : (Store.termByName (σ := σ) name).Looks
  looks_glossary (id : GlossaryId) : (Store.glossary (σ := σ) id).Looks
  looks_members (id : GlossaryId) : (Store.members (σ := σ) id).Looks
  looks_edgesFrom (id : TermId) (filter : TypeFilter) : (Store.edgesFrom (σ := σ) id filter).Looks
  looks_usage : (Store.usage (σ := σ)).Looks
  isLive_run (s : σ) (id : TermId) :
    (Store.isLive id).run s = (.ok (liveRecord s id).isSome, s)
  sound_empty : Sound EditableStore.empty
  links_empty : links (EditableStore.empty : σ) = ∅
  sound_write {s : σ} (w : Write) : Sound s → Sound (w.run s)
  regular_of_links_eq_empty {s : σ} : Sound s → links s = ∅ → Regular s
  links_edit {s : σ} (x : Edit) : links (x.run s) = links s
  regular_edit {s : σ} (x : Edit) : Regular s → Regular (x.run s)
  record_id {s : σ} {id : TermId} {t : Term} : Sound s → record s id = some t → t.id = id
  mem_leaving {s : σ} {id : TermId} {filter : TypeFilter} {e : Edge} : Sound s → Known s id →
    (∀ type ∈ filter, isTypeName type = true) →
      (e ∈ leaving s id filter ↔
        e ∈ links s ∧ e.source = id ∧ filter.accepts e.type = true)
  nodup_leaving {s : σ} (id : TermId) (filter : TypeFilter) :
    Sound s → (leaving s id filter).Nodup
  apply_run {s : σ} {ops : List EdgeOp} : Sound s → Regular s →
    (∀ e, .add e ∈ ops → Known s e.source ∧ Known s e.target ∧ isTypeName e.type = true) →
      ∃ s', (Store.apply ops).run s = (.ok (batchFlags ops (links s)), s') ∧
        links s' = batchResult ops (links s) ∧ Regular s' ∧ SameTerms s s'

namespace LawfulStore

variable {σ : Type} [EditableStore σ] [LawfulStore σ]

/-- Every state that calls bring about is sound. -/
theorem sound_of_built {s : σ} (h : Built s) : Sound s := by
  induction h with
  | empty => exact sound_empty
  | write w _ ih => exact sound_write w ih

/-- A batch leaves a sound state. -/
theorem sound_of_apply_run {s s' : σ} {ops : List EdgeOp} {flags : List Bool} (hs : Sound s)
    (h : (Store.apply ops).run s = (.ok flags, s')) : Sound s' := by
  have hwrite := sound_write (.apply ops) hs
  rw [Write.run, h] at hwrite
  exact hwrite

theorem id_of_liveRecord {s : σ} {id : TermId} {t : Term} (h : Sound s)
    (ht : liveRecord s id = some t) : t.id = id :=
  record_id h (liveRecord_eq_some_iff.1 ht).1

theorem term_run (s : σ) (id : TermId) : (Store.term id).run s = (.ok (record s id), s) := by
  obtain ⟨a, ha⟩ := looks_term id s
  rw [ha, record, StoreM.answer?, ha]
  rfl

theorem readable (s : σ) : Readable s := ⟨term_run s, isLive_run s⟩

theorem edgesFrom_run (s : σ) (id : TermId) (filter : TypeFilter) :
    (Store.edgesFrom id filter).run s = (.ok (leaving s id filter), s) := by
  obtain ⟨a, ha⟩ := looks_edgesFrom id filter s
  rw [ha, leaving, StoreM.answer?, ha]
  rfl

end LawfulStore

end Thesaurus
