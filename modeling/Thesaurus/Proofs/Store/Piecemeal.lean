import Thesaurus.Proofs.Store.Memory
import Thesaurus.Store.Failing

/-!
# Stores that apply batches piece by piece

A store that leaves batches to their general meaning applies one write after the
other. Any of its calls may fail, but a call that fails has not written, so what a
broken batch leaves behind is the effect of the writes before the break.

Such a store need not answer in every state, so its edges cannot be read off its
answers. The laws speak of the edges that it holds.

## Main definitions

* `PiecemealStore`: the laws.

## Main results

* `PiecemealStore.apply_cases`: a batch is applied up to its end or up to a break.
* the instance for the store with scheduled failures.
-/

namespace Thesaurus

open Store

namespace Store

variable {σ : Type} [Store σ]

/-- One write as a call. -/
def write : EdgeOp → StoreM σ Bool
  | .add e => Store.addEdge e
  | .remove e => Store.removeEdge e

end Store

/-- The laws of a store any of whose calls may fail, but none after writing. -/
class PiecemealStore (σ : Type) [Store σ] where
  /-- What all calls keep. -/
  Sound : σ → Prop
  /-- The edges that are stored, whether calls answer or not. -/
  held : σ → Finset Edge
  /-- No call is about to fail by itself. -/
  Quiet : σ → Prop
  apply_eq (ops : List EdgeOp) : Store.apply (σ := σ) ops = ops.mapM Store.write
  keeps_term (id : TermId) (edges : Finset Edge) :
    Keeps (fun s => Sound s ∧ held s = edges) (Store.term (σ := σ) id)
  keeps_isLive (id : TermId) (edges : Finset Edge) :
    Keeps (fun s => Sound s ∧ held s = edges) (Store.isLive (σ := σ) id)
  write_cases {s : σ} (op : EdgeOp) : Sound s →
    (∃ changed s', (Store.write op).run s = (.ok changed, s') ∧ Sound s' ∧
        held s' = op.result (held s)) ∨
      ∃ fault s', (Store.write op).run s = (.error fault, s') ∧ Sound s' ∧ held s' = held s
  readable_of_quiet {s : σ} : Quiet s → Readable s
  write_of_quiet {s : σ} (op : EdgeOp) : Quiet s →
    (∀ e, op = .add e → Known s e.source ∧ Known s e.target) →
      ∃ changed s', (Store.write op).run s = (.ok changed, s') ∧ Quiet s' ∧
        ∀ id, record s' id = record s id

namespace PiecemealStore

variable {σ : Type} [Store σ] [PiecemealStore σ]

/-- A batch ends with all of its writes done, or breaks with some of them done. -/
theorem apply_cases (ops : List EdgeOp) {s : σ} (hs : Sound s) :
    (∃ flags s', (Store.apply ops).run s = (.ok flags, s') ∧ Sound s' ∧
        held s' = batchResult ops (held s)) ∨
      ∃ fault s' front op back, (Store.apply ops).run s = (.error fault, s') ∧ Sound s' ∧
        ops = front ++ op :: back ∧ held s' = batchResult front (held s) := by
  rw [apply_eq]
  induction ops generalizing s with
  | nil => exact .inl ⟨[], s, run_pure _ s, hs, rfl⟩
  | cons op rest ih =>
      rw [List.mapM_cons]
      rcases write_cases op hs with ⟨changed, t, hrun, ht, hheld⟩ | ⟨fault, t, hrun, ht, hheld⟩
      · rw [run_bind_ok hrun]
        rcases ih ht with ⟨flags, u, hrest, hu, hheld'⟩ |
            ⟨fault, u, front, broken, back, hrest, hu, hsplit, hheld'⟩
        · refine .inl ⟨changed :: flags, u, ?_, hu, ?_⟩
          · rw [run_bind_ok hrest, run_pure]
          · rw [hheld', hheld, batchResult]
        · refine .inr ⟨fault, u, op :: front, broken, back, run_bind_error hrest, hu, ?_, ?_⟩
          · rw [hsplit, List.cons_append]
          · rw [hheld', hheld, batchResult]
      · exact .inr ⟨fault, t, [], op, rest, run_bind_error hrun, ht, rfl, hheld⟩

/-- Where no call is about to fail, a batch between known terms is applied. -/
theorem apply_of_quiet (ops : List EdgeOp) {s : σ} (hs : Quiet s)
    (hops : ∀ e, .add e ∈ ops → Known s e.source ∧ Known s e.target) :
    ∃ flags s', (Store.apply ops).run s = (.ok flags, s') := by
  rw [apply_eq]
  induction ops generalizing s with
  | nil => exact ⟨[], s, run_pure _ s⟩
  | cons op rest ih =>
      obtain ⟨changed, t, hrun, ht, hrecords⟩ :=
        write_of_quiet op hs fun e he => hops e (he ▸ List.mem_cons_self)
      have hrest : ∀ e, .add e ∈ rest → Known t e.source ∧ Known t e.target := by
        intro e he
        unfold Known
        rw [hrecords, hrecords]
        exact hops e (List.mem_cons_of_mem op he)
      obtain ⟨flags, u, hrun'⟩ := ih ht hrest
      exact ⟨changed :: flags, u, by rw [List.mapM_cons, run_bind_ok hrun, run_bind_ok hrun', run_pure]⟩

end PiecemealStore

/-! ## The store with scheduled failures -/

namespace FailingStore

variable {s : FailingStore}

/-- A call fails and leaves all as it is, or is a call on the graph. -/
theorem guarded_cases {α : Type} (call : StoreCall) (act : StoreM TermGraph α)
    (s : FailingStore) :
    (∃ fault, (guarded call act).run s = (.error fault, s)) ∨
      ∃ outages, (guarded call act).run s =
        ((act.run s.graph).1, { graph := (act.run s.graph).2, outages := outages }) := by
  unfold guarded admitCall
  rw [bind_assoc, run_get_bind]
  cases s.outages.lookup call with
  | none => exact .inr ⟨s.outages, rfl⟩
  | some outage =>
      obtain ⟨remaining, fault⟩ := outage
      cases remaining with
      | zero => exact .inl ⟨fault, rfl⟩
      | succ left => exact .inr ⟨_, rfl⟩

theorem guarded_of_quiet {α : Type} (call : StoreCall) (act : StoreM TermGraph α)
    (hs : s.outages = []) :
    (guarded call act).run s = ((act.run s.graph).1, { s with graph := (act.run s.graph).2 }) := by
  obtain ⟨graph, outages⟩ := s
  obtain rfl : outages = [] := hs
  rfl

theorem write_eq (op : EdgeOp) : ∃ call,
    (Store.write op : StoreM FailingStore Bool) = guarded call (Store.write op) := by
  cases op with
  | add e => exact ⟨.addEdge, rfl⟩
  | remove e => exact ⟨.removeEdge, rfl⟩

theorem keeps_guarded {α : Type} (call : StoreCall) {act : StoreM TermGraph α} (h : act.Looks)
    (P : TermGraph → Prop) : Keeps (fun s : FailingStore => P s.graph) (guarded call act) := by
  intro s hs
  rcases guarded_cases call act s with ⟨fault, hrun⟩ | ⟨outages, hrun⟩
  · rw [hrun]
    exact hs
  · obtain ⟨a, ha⟩ := h s.graph
    rw [hrun, ha]
    exact hs

/-- On the graph a write either finds an unknown end or does what it says. -/
theorem graph_write_cases {g : TermGraph} (h : g.edges.Nodup) (op : EdgeOp) :
    (∃ changed g', (Store.write op).run g = (.ok changed, g') ∧ g'.edges.Nodup ∧
        links g' = op.result (links g)) ∨
      ∃ fault, (Store.write op).run g = (.error fault, g) := by
  cases op with
  | add e =>
      by_cases hends : g.knowsEnds e = true
      · obtain ⟨-, hlinks, hnodup, -⟩ :=
          TermGraph.write_spec h (.add e) fun f hf => EdgeOp.add.inj hf ▸ hends
        refine .inl ⟨_, _, (TermGraph.addEdge_run e g).trans (if_pos hends), hnodup, hlinks⟩
      · exact .inr ⟨_, (TermGraph.addEdge_run e g).trans (if_neg hends)⟩
  | remove e =>
      obtain ⟨-, hlinks, hnodup, -⟩ :=
        TermGraph.write_spec h (.remove e) (by intro f hf; cases hf)
      exact .inl ⟨_, _, rfl, hnodup, hlinks⟩

theorem term_of_quiet (hs : s.outages = []) (id : TermId) :
    (Store.term id).run s = (.ok (s.graph.term? id), s) :=
  guarded_of_quiet .term (Store.term id) hs

theorem record_of_quiet (hs : s.outages = []) (id : TermId) : record s id = s.graph.term? id := by
  rw [record, StoreM.answer?, term_of_quiet hs]
  rfl

instance : PiecemealStore FailingStore where
  Sound s := s.graph.edges.Nodup
  held s := links s.graph
  Quiet s := s.outages = []
  apply_eq ops := by
    show ops.mapM _ = ops.mapM _
    congr 1
  keeps_term id edges :=
    keeps_guarded .term (LawfulStore.looks_term id) fun g => g.edges.Nodup ∧ links g = edges
  keeps_isLive id edges :=
    (keeps_guarded .term (LawfulStore.looks_term id) fun g =>
      g.edges.Nodup ∧ links g = edges).bind fun _ => Keeps.pure _
  write_cases {s} op hs := by
    obtain ⟨call, hcall⟩ := write_eq op
    rw [hcall]
    rcases guarded_cases call (Store.write op) s with ⟨fault, hrun⟩ | ⟨outages, hrun⟩
    · exact .inr ⟨fault, s, hrun, hs, rfl⟩
    · rcases graph_write_cases hs op with ⟨changed, g, hgraph, hnodup, hlinks⟩ | ⟨fault, hgraph⟩
      · rw [hgraph] at hrun
        exact .inl ⟨changed, _, hrun, hnodup, hlinks⟩
      · rw [hgraph] at hrun
        exact .inr ⟨fault, _, hrun, hs, rfl⟩
  readable_of_quiet {s} hs := by
    have hlive : ∀ id, (Store.isLive id).run s =
        (.ok ((s.graph.term? id).any fun t => !t.deleted), s) := by
      intro id
      show ExceptT.run (Store.term id >>= _) s = _
      rw [run_bind_ok (term_of_quiet hs id), run_pure]
    refine ⟨fun id => ?_, fun id => ?_⟩
    · rw [term_of_quiet hs, record_of_quiet hs]
    · rw [hlive, liveRecord, record_of_quiet hs, Term.any_not_deleted]
  write_of_quiet {s} op hs hends := by
    obtain ⟨call, hcall⟩ := write_eq op
    have hrun := guarded_of_quiet call (Store.write op) hs
    have hknown : ∀ id, Known s id → s.graph.knows id = true := by
      intro id hid
      rw [TermGraph.knows_iff, Known, TermGraph.record_eq, ← record_of_quiet hs]
      exact hid
    obtain ⟨changed, hgraph⟩ : ∃ changed,
        (Store.write op).run s.graph = (.ok changed, (s.graph.write op).2) := by
      cases op with
      | add e =>
          obtain ⟨hsource, htarget⟩ := hends e rfl
          have hknowsEnds : s.graph.knowsEnds e = true := by
            simp [TermGraph.knowsEnds, hknown _ hsource, hknown _ htarget]
          exact ⟨_, (TermGraph.addEdge_run e s.graph).trans (if_pos hknowsEnds)⟩
      | remove e => exact ⟨_, rfl⟩
    rw [hgraph] at hrun
    refine ⟨changed, { s with graph := (s.graph.write op).2 }, hcall ▸ hrun, hs, fun id => ?_⟩
    rw [record_of_quiet (by exact hs), record_of_quiet hs]
    exact (s.graph.rewired_write op).sameTerms.record_eq id

end FailingStore

end Thesaurus
