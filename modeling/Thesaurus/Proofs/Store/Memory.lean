import Mathlib.Data.List.Nodup
import Thesaurus.Proofs.Computation
import Thesaurus.Proofs.Store.Lawful

/-!
# The term graph is a lawful store

The edges of a term graph stand in a list, each once. Writing terms leaves the
list alone, so the only thing to watch is that adding looks before it appends and
that removing the first occurrence removes the edge.

## Main results

* `TermGraph.writeAll_spec`: a batch on the list is the batch on the set.
* the instance of `LawfulStore`.
-/

namespace Thesaurus

open Store

namespace TermGraph

variable {g : TermGraph}

/-! ## Terms -/

theorem record_eq (g : TermGraph) (id : TermId) : record g id = g.term? id := rfl

theorem id_of_term? {id : TermId} {t : Term} (h : g.term? id = some t) : t.id = id := by
  unfold term? node? at h
  obtain ⟨n, hn, rfl⟩ := Option.map_eq_some_iff.1 h
  have hid := List.find?_some hn
  simpa using hid

theorem knows_iff {id : TermId} : g.knows id = true ↔ Known g id := by
  rw [knows, Known, record_eq, term?, Option.isSome_map]

/-- The second graph is the first with other edges. -/
def Rewired (g g' : TermGraph) : Prop := ∃ edges, g' = { g with edges := edges }

theorem Rewired.trans {g' g'' : TermGraph} (h : Rewired g g') (h' : Rewired g' g'') :
    Rewired g g'' := by
  obtain ⟨edges, rfl⟩ := h
  obtain ⟨edges', rfl⟩ := h'
  exact ⟨edges', rfl⟩

theorem Rewired.sameTerms {g' : TermGraph} (h : Rewired g g') : SameTerms g g' := by
  obtain ⟨edges, rfl⟩ := h
  exact ⟨fun _ => rfl, fun _ => rfl, fun _ => rfl, fun _ => rfl⟩

theorem Rewired.knowsEnds_eq {g' : TermGraph} (h : Rewired g g') (e : Edge) :
    g'.knowsEnds e = g.knowsEnds e := by
  obtain ⟨edges, rfl⟩ := h
  rfl

theorem edges_addTerm (g : TermGraph) (t : Term) : (g.addTerm t).edges = g.edges := by
  unfold addTerm
  cases g.term? t.id with
  | none => rfl
  | some previous =>
      have hkept : ∀ g' : TermGraph, g'.edges = g.edges →
          (if previous.glossary = t.glossary then g'.updateNode t.id fun n => { n with term := t }
            else { g'.updateNode t.id fun _ => { term := t, joined := g'.nextJoin } with
              nextJoin := g'.nextJoin + 1 }).edges = g.edges := by
        intro g' hg'
        split
        · exact hg'
        · exact hg'
      apply hkept
      split
      · rfl
      · rfl

theorem edges_editRun (x : Edit) (g : TermGraph) : (x.run g).edges = g.edges := by
  cases x with
  | putGlossary glossary => rfl
  | putTerm t => exact edges_addTerm g t
  | deleteTerm id =>
      show ((deleteTerm id).run g).2.edges = g.edges
      by_cases hknown : g.knows id = true
      · have hmark : g.markDeleted? id = some (g.updateNode id fun n =>
            { n with term := { n.term with deleted := true } }) := by
          rw [markDeleted?, if_pos hknown]
        have hrun : ((deleteTerm id).run g).2 = g.updateNode id fun n =>
            { n with term := { n.term with deleted := true } } := by
          unfold deleteTerm
          rw [run_get_bind, hmark]
          rfl
        rw [hrun, updateNode]
      · have hmark : g.markDeleted? id = none := by
          rw [markDeleted?, if_neg hknown]
        unfold deleteTerm
        rw [run_get_bind, hmark]
        rfl

/-! ## Edges -/

theorem links_eq (g : TermGraph) : links g = g.edges.toFinset := rfl

theorem mem_links {e : Edge} : e ∈ links g ↔ e ∈ g.edges := List.mem_toFinset

/-- Writes of edges leave terms alone. -/
theorem rewired_write (g : TermGraph) (op : EdgeOp) : Rewired g (g.write op).2 := by
  cases op with
  | add e =>
      unfold write addEdge?
      by_cases hends : g.knowsEnds e = true
      · by_cases hmem : g.containsEdge e = true
        · exact ⟨g.edges, by simp [hends, hmem]⟩
        · exact ⟨g.edges ++ [e], by simp [hends, hmem]⟩
      · exact ⟨g.edges, by simp [hends]⟩
  | remove e => exact ⟨_, rfl⟩

theorem rewired_writeAll (ops : List EdgeOp) :
    ∀ g : TermGraph, Rewired g (g.writeAll ops).2 := by
  induction ops with
  | nil => intro g; exact ⟨g.edges, rfl⟩
  | cons op rest ih => intro g; exact (g.rewired_write op).trans (ih (g.write op).2)

/-- A write whose ends are known does to the list what it says of the set. -/
theorem write_spec (hnodup : g.edges.Nodup) (op : EdgeOp)
    (hends : ∀ e, op = .add e → g.knowsEnds e = true) :
    (g.write op).1 = op.changes (links g) ∧ links (g.write op).2 = op.result (links g) ∧
      (g.write op).2.edges.Nodup ∧ Rewired g (g.write op).2 := by
  cases op with
  | add e =>
      have hknown := hends e rfl
      by_cases hmem : e ∈ g.edges
      · have hwrite : g.write (.add e) = (false, g) := by
          simp [write, addEdge?, hknown, containsEdge, hmem]
        rw [hwrite]
        have hlinks := mem_links.2 hmem
        refine ⟨by simp [EdgeOp.changes, hlinks], ?_, hnodup, ⟨g.edges, rfl⟩⟩
        exact (Finset.insert_eq_of_mem hlinks).symm
      · have hwrite : g.write (.add e) = (true, { g with edges := g.edges ++ [e] }) := by
          simp [write, addEdge?, hknown, containsEdge, hmem]
        rw [hwrite]
        have hlinks : e ∉ links g := fun h => hmem (mem_links.1 h)
        refine ⟨by simp [EdgeOp.changes, hlinks], ?_, ?_, ⟨_, rfl⟩⟩
        · ext f
          simp only [EdgeOp.result, Finset.mem_insert, mem_links, List.mem_append,
            List.mem_singleton]
          exact or_comm
        · show (g.edges ++ [e]).Nodup
          rw [← List.concat_eq_append]
          exact hnodup.concat hmem
  | remove e =>
      refine ⟨?_, ?_, hnodup.erase e, ⟨_, rfl⟩⟩
      · by_cases hmem : e ∈ g.edges
        · simp [write, removeEdge, containsEdge, EdgeOp.changes, mem_links, hmem]
        · simp [write, removeEdge, containsEdge, EdgeOp.changes, mem_links, hmem]
      · ext f
        simp only [write, removeEdge, EdgeOp.result, mem_links, Finset.mem_erase]
        exact hnodup.mem_erase_iff

theorem writeAll_spec (ops : List EdgeOp) :
    ∀ g : TermGraph, g.edges.Nodup → (∀ e, .add e ∈ ops → g.knowsEnds e = true) →
      (g.writeAll ops).1 = batchFlags ops (links g) ∧
        links (g.writeAll ops).2 = batchResult ops (links g) ∧
          (g.writeAll ops).2.edges.Nodup ∧ Rewired g (g.writeAll ops).2 := by
  induction ops with
  | nil => intro g hnodup _; exact ⟨rfl, rfl, hnodup, ⟨g.edges, rfl⟩⟩
  | cons op rest ih =>
      intro g hnodup hends
      obtain ⟨hflag, hlinks, hnodup', hframe⟩ :=
        write_spec hnodup op fun e he => hends e (he ▸ List.mem_cons_self)
      have hends' : ∀ e, .add e ∈ rest → (g.write op).2.knowsEnds e = true := by
        intro e he
        rw [hframe.knowsEnds_eq]
        exact hends e (List.mem_cons_of_mem _ he)
      obtain ⟨hflags, hlinks', hnodup'', hframe'⟩ := ih (g.write op).2 hnodup' hends'
      refine ⟨?_, ?_, hnodup'', hframe.trans hframe'⟩
      · show (g.write op).1 :: ((g.write op).2.writeAll rest).1 = _
        rw [hflag, hflags, hlinks, batchFlags]
      · show links ((g.write op).2.writeAll rest).2 = _
        rw [hlinks', hlinks, batchResult]

/-- No edge to be added has an unknown end exactly when no error is found. -/
theorem firstUnknownEnd?_eq_none_iff {ops : List EdgeOp} :
    g.firstUnknownEnd? ops = none ↔ ∀ e, .add e ∈ ops → g.knowsEnds e = true := by
  unfold firstUnknownEnd?
  rw [List.findSome?_eq_none_iff]
  constructor
  · intro h e he
    have hnone := h (.add e) he
    by_contra hends
    simp [hends] at hnone
  · intro h op hop
    cases op with
    | add e => simp [h e hop]
    | remove e => rfl

theorem addEdge_run (e : Edge) (g : TermGraph) :
    (Store.addEdge e).run g =
      if g.knowsEnds e = true then (.ok (g.write (.add e)).1, (g.write (.add e)).2)
      else (.error (.refused (g.unknownEnd e)), g) := by
  show ExceptT.run (get >>= _ : StoreM TermGraph _) g = _
  rw [run_get_bind]
  by_cases hends : g.knowsEnds e = true
  · rw [if_pos hends, write]
    obtain ⟨added, g', hadd⟩ : ∃ added g', g.addEdge? e = some (added, g') := by
      by_cases hmem : e ∈ g.edges
      · exact ⟨false, g, by simp [addEdge?, hends, containsEdge, hmem]⟩
      · exact ⟨true, _, by simp [addEdge?, hends, containsEdge, hmem]; rfl⟩
    rw [hadd]
    rfl
  · rw [if_neg hends]
    have hadd : g.addEdge? e = none := by simp [addEdge?, hends]
    rw [hadd]
    rfl

theorem apply_run (ops : List EdgeOp) (g : TermGraph) :
    (Store.apply ops).run g =
      match g.firstUnknownEnd? ops with
      | some error => (.error (.refused error), g)
      | none => (.ok (g.writeAll ops).1, (g.writeAll ops).2) := by
  show ExceptT.run (get >>= _ : StoreM TermGraph _) g = _
  rw [run_get_bind]
  cases g.firstUnknownEnd? ops with
  | some error => rfl
  | none => rfl

/-- A call that writes no terms rewires the graph. -/
theorem rewired_or_edit (w : Write) (g : TermGraph) :
    (∃ x, w = .edit x) ∨ Rewired g (w.run g) := by
  cases w with
  | edit x => exact .inl ⟨x, rfl⟩
  | addEdge e =>
      refine .inr ?_
      show Rewired g ((Store.addEdge e).run g).2
      rw [addEdge_run]
      split
      · exact g.rewired_write (.add e)
      · exact ⟨g.edges, rfl⟩
  | removeEdge e => exact .inr ⟨_, rfl⟩
  | apply ops =>
      refine .inr ?_
      show Rewired g ((Store.apply ops).run g).2
      rw [apply_run]
      split
      · exact ⟨g.edges, rfl⟩
      · exact rewired_writeAll ops g

/-! ## The laws -/

/-- Every call keeps the edges distinct, raw writes of any edge included. -/
theorem nodup_write (w : Write) (h : g.edges.Nodup) : (w.run g).edges.Nodup := by
  cases w with
  | edit x =>
      show (x.run g).edges.Nodup
      rw [edges_editRun]
      exact h
  | addEdge e =>
      show ((Store.addEdge e).run g).2.edges.Nodup
      rw [addEdge_run]
      by_cases hends : g.knowsEnds e = true
      · rw [if_pos hends]
        exact (write_spec h (.add e) fun f hf => EdgeOp.add.inj hf ▸ hends).2.2.1
      · rw [if_neg hends]
        exact h
  | removeEdge e => exact h.erase e
  | apply ops =>
      show ((Store.apply ops).run g).2.edges.Nodup
      rw [apply_run]
      cases hfirst : g.firstUnknownEnd? ops with
      | some error => exact h
      | none => exact (writeAll_spec ops g h (firstUnknownEnd?_eq_none_iff.1 hfirst)).2.2.1

theorem mem_edgesFrom {id : TermId} {filter : TypeFilter} {e : Edge} :
    e ∈ g.edgesFrom id filter ↔
      e ∈ links g ∧ e.source = id ∧ filter.accepts e.type = true := by
  simp [edgesFrom, List.mem_mergeSort, mem_links]

theorem nodup_edgesFrom (h : g.edges.Nodup) (id : TermId) (filter : TypeFilter) :
    (g.edgesFrom id filter).Nodup :=
  (List.mergeSort_perm _ _).nodup_iff.2 (List.Nodup.filter _ h)

instance : LawfulStore TermGraph where
  Sound g := g.edges.Nodup
  Regular _ := True
  looks_term _ := StoreM.looks_view _
  looks_termByName _ := StoreM.looks_view _
  looks_glossary _ := StoreM.looks_view _
  looks_members _ := StoreM.looks_view _
  looks_edgesFrom _ _ := StoreM.looks_view _
  looks_usage := fun g => ⟨countTypes g.edges, rfl⟩
  isLive_run g id := by
    show (Except.ok ((g.term? id).any fun t => !t.deleted), g) = _
    rw [Term.any_not_deleted]
    rfl
  sound_empty := List.nodup_nil
  links_empty := rfl
  sound_write w h := nodup_write w h
  regular_of_links_eq_empty _ _ := trivial
  links_edit x := by rw [links_eq, edges_editRun, links_eq]
  regular_edit _ _ := trivial
  record_id _ h := id_of_term? h
  mem_leaving _ _ _ := mem_edgesFrom
  nodup_leaving id filter h := nodup_edgesFrom h id filter
  apply_run {g ops} h _ hops := by
    have hends : ∀ e, .add e ∈ ops → g.knowsEnds e = true := by
      intro e he
      obtain ⟨hsource, htarget, -⟩ := hops e he
      simp [knowsEnds, knows_iff.2 hsource, knows_iff.2 htarget]
    obtain ⟨hflags, hlinks, -, hframe⟩ := writeAll_spec ops g h hends
    refine ⟨(g.writeAll ops).2, ?_, hlinks, trivial, hframe.sameTerms⟩
    rw [apply_run, firstUnknownEnd?_eq_none_iff.2 hends, ← hflags]

end TermGraph

end Thesaurus
