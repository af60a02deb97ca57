import Thesaurus.Proofs.Store.EdgeOrder
import Thesaurus.Proofs.Store.Terms
import Thesaurus.Proofs.Store.Usage

/-!
# The two stores answer alike

The store in memory keeps nodes and a list of edges, the ordered store tables and
edge keys. As long as no identity holds the separator and all types are type
names, no call tells them apart, but for the lookup of a name: every write gives
the same answer on both, and afterwards so does every question.

The two states are tied by a relation that says that they hold the same records,
glossaries and edges, and that each is in order in its own way. It holds of the
empty stores, and every write keeps it.

## Main definitions

* `Write.answer`, `answers`: what writing calls answer.
* `Write.Proper`: a write without odd identities and types.
* `AnswerAlike`: two states that no question about identities tells apart.
* `Agree`: the relation between the states.

## Main results

* `Agree.write`: every proper write has the same answer and keeps the relation.
* `answer_alike_after_writes`: the stores are equivalent.
-/

namespace Thesaurus

open Store LawfulStore

/-! ## Answers of calls -/

/-- What a writing call answers. -/
inductive Answer
  | done
  | changed (flag : Bool)
  | flags (flags : List Bool)
deriving DecidableEq, Repr

section Answers

variable {σ : Type} [EditableStore σ]

/-- What a call answers, or how it fails. -/
def Edit.answer (x : Edit) (s : σ) : Except Fault Answer :=
  match x with
  | .putGlossary g => ((EditableStore.putGlossary g).run s).1.map fun _ => .done
  | .putTerm t => ((EditableStore.putTerm t).run s).1.map fun _ => .done
  | .deleteTerm id => ((EditableStore.deleteTerm id).run s).1.map fun _ => .done

/-- What a call answers, or how it fails. -/
def Write.answer (w : Write) (s : σ) : Except Fault Answer :=
  match w with
  | .edit x => x.answer s
  | .addEdge e => ((Store.addEdge e).run s).1.map .changed
  | .removeEdge e => ((Store.removeEdge e).run s).1.map .changed
  | .apply ops => ((Store.apply ops).run s).1.map .flags

/-- What calls answer that are made one after the other. -/
def answers : List Write → σ → List (Except Fault Answer)
  | [], _ => []
  | w :: rest, s => w.answer s :: answers rest (w.run s)

/-- The state after calls that are made one after the other. -/
def runWrites (ws : List Write) (s : σ) : σ := ws.foldl (fun s w => w.run s) s

end Answers

/-- Two states, of whatever stores, that no question tells apart but the lookup of
a name. Where a store promises no order, the answers hold the same things, each
as often. -/
structure AnswerAlike {σ τ : Type} [Store σ] [Store τ] (s : σ) (t : τ) : Prop where
  term : ∀ id, ((Store.term id).run s).1 = ((Store.term id).run t).1
  isLive : ∀ id, ((Store.isLive id).run s).1 = ((Store.isLive id).run t).1
  glossary : ∀ id, ((Store.glossary id).run s).1 = ((Store.glossary id).run t).1
  edgesFrom : ∀ id filter, id.isStorable = true →
    ((Store.edgesFrom id filter).run s).1 = ((Store.edgesFrom id filter).run t).1
  usage : (Store.usage.run s).1 = (Store.usage.run t).1
  edges : ∃ l l', (Store.edges.run s).1 = .ok l ∧ (Store.edges.run t).1 = .ok l' ∧ l.Perm l'
  members : ∀ id, ∃ l l', ((Store.members id).run s).1 = .ok l ∧
    ((Store.members id).run t).1 = .ok l' ∧ l.Perm l'

/-! ## Proper writes -/

/-- An edge whose ends may be stored and whose type is a type name. -/
structure Edge.Proper (e : Edge) : Prop where
  source : keySeparator ∉ e.source.text.toList
  target : keySeparator ∉ e.target.text.toList
  type : isTypeName e.type = true

theorem Edge.Proper.plain {e : Edge} (h : e.Proper) : e.Plain where
  source := h.source
  target := h.target
  type := keySeparator_notMem_of_isTypeName h.type

instance : DecidablePred Edge.Proper := fun e =>
  decidable_of_iff
    (keySeparator ∉ e.source.text.toList ∧ keySeparator ∉ e.target.text.toList ∧
      isTypeName e.type = true)
    ⟨fun h => ⟨h.1, h.2.1, h.2.2⟩, fun h => ⟨h.source, h.target, h.type⟩⟩

/-- The edge of a write. -/
def EdgeOp.edge : EdgeOp → Edge
  | .add e => e
  | .remove e => e

/-- A write without separators in identities and without odd types. -/
def Write.Proper : Write → Prop
  | .edit x => x.isStorable = true
  | .addEdge e => e.Proper
  | .removeEdge e => e.Proper
  | .apply ops => ∀ op ∈ ops, op.edge.Proper

instance : DecidablePred Write.Proper := fun w =>
  match w with
  | .edit x => inferInstanceAs (Decidable (x.isStorable = true))
  | .addEdge e => inferInstanceAs (Decidable e.Proper)
  | .removeEdge e => inferInstanceAs (Decidable e.Proper)
  | .apply ops => inferInstanceAs (Decidable (∀ op ∈ ops, op.edge.Proper))

/-! ## The relation -/

/-- The stores hold the same records, glossaries and edges, and each is in order. -/
structure Agree (g : TermGraph) (s : OrderedStore) : Prop where
  terms : ∀ id, g.term? id = s.term? id
  glossaries : g.glossaries = s.glossaries
  links : links g = links s
  proper : ∀ e ∈ Store.links s, e.Proper
  distinct : g.Distinct
  nodup : g.edges.Nodup
  filed : s.Filed
  plain : s.PlainKeys

namespace Agree

variable {g : TermGraph} {s : OrderedStore}

theorem empty : Agree TermGraph.empty OrderedStore.empty where
  terms _ := rfl
  glossaries := rfl
  links := rfl
  proper e he := absurd he (Finset.notMem_empty e)
  distinct := List.nodup_nil
  nodup := List.nodup_nil
  filed := OrderedStore.filed_empty
  plain _ hkey := absurd hkey List.not_mem_nil

/-! ### Edits -/

theorem answer_edit (h : Agree g s) {x : Edit} (hx : x.isStorable = true) :
    x.answer g = x.answer s := by
  cases x with
  | putGlossary glossary => rfl
  | putTerm t =>
      show _ = ((OrderedStore.storeTerm t).run s).1.map _
      rw [OrderedStore.storeTerm_run, if_pos (by exact hx)]
      rfl
  | deleteTerm id =>
      show ((TermGraph.deleteTerm id).run g).1.map _ = ((OrderedStore.deleteTerm id).run s).1.map _
      rw [TermGraph.deleteTerm_run, OrderedStore.deleteTerm_run_of_filed h.filed]
      have hknows : g.knows id = (s.term? id).isSome := by
        rw [← h.terms, TermGraph.term?, Option.isSome_map, TermGraph.knows]
      rw [hknows]
      cases s.term? id with
      | none => rfl
      | some t => rfl

theorem edit (h : Agree g s) {x : Edit} (hx : x.isStorable = true) :
    Agree (x.run g) (x.run s) where
  terms id := by
    rw [TermGraph.term?_editRun, OrderedStore.term?_editRun h.filed hx, funext h.terms]
  glossaries := by
    rw [TermGraph.glossaries_editRun, OrderedStore.glossaries_editRun, h.glossaries]
  links := by rw [links_edit, links_edit, h.links]
  proper e he := by
    rw [links_edit] at he
    exact h.proper e he
  distinct := h.distinct.editRun x
  nodup := by
    rw [TermGraph.edges_editRun]
    exact h.nodup
  filed := h.filed.editRun x
  plain := h.plain.editRun x

/-! ### Edges -/

/-- Both stores look at the source first, and miss the same ends. -/
theorem edgeError?_eq (h : Agree g s) {e : Edge} (he : e.Proper) :
    s.edgeError? e = if g.knowsEnds e = true then none else some (g.unknownEnd e) := by
  have hend : ∀ id : TermId, keySeparator ∉ id.text.toList →
      s.endError? id = if g.knows id = true then none else some (.notFound id.text) := by
    intro id hid
    have hstorable := TermId.isStorable_iff.2 hid
    have hknows : g.knows id = (s.term? id).isSome := by
      rw [← h.terms, TermGraph.term?, Option.isSome_map, TermGraph.knows]
    unfold OrderedStore.endError?
    rw [hknows]
    cases s.term? id with
    | none => simp [hstorable]
    | some t => simp [hstorable]
  unfold OrderedStore.edgeError?
  rw [hend _ he.source, hend _ he.target]
  unfold TermGraph.knowsEnds TermGraph.unknownEnd
  cases hsource : g.knows e.source with
  | false => simp
  | true =>
      cases htarget : g.knows e.target with
      | false => simp
      | true => simp

theorem firstError?_eq (h : Agree g s) {ops : List EdgeOp} (hops : ∀ op ∈ ops, op.edge.Proper) :
    s.firstError? ops = g.firstUnknownEnd? ops := by
  unfold OrderedStore.firstError? TermGraph.firstUnknownEnd?
  induction ops with
  | nil => rfl
  | cons op rest ih =>
      have hrest := ih fun op' hop' => hops op' (List.mem_cons_of_mem op hop')
      rw [List.findSome?_cons, List.findSome?_cons, hrest]
      cases op with
      | add e =>
          have he : e.Proper := hops _ List.mem_cons_self
          simp only [h.edgeError?_eq he]
      | remove e => rfl

/-- Writes whose ends are known change the same edges in both stores. -/
theorem writeAll (h : Agree g s) (ops : List EdgeOp) (hops : ∀ op ∈ ops, op.edge.Proper)
    (hends : ∀ e, .add e ∈ ops → g.knowsEnds e = true) :
    (g.writeAll ops).1 = (s.writeAll ops).1 ∧ Agree (g.writeAll ops).2 (s.writeAll ops).2 := by
  have hproper : ∀ e, .add e ∈ ops → e.Proper := fun e he => hops (.add e) he
  obtain ⟨hflags, hlinks, hnodup, edges, hg⟩ := TermGraph.writeAll_spec ops g h.nodup hends
  obtain ⟨hflags', hlinks', hplain, edgeKeys, hs⟩ :=
    OrderedStore.writeAll_spec ops s h.plain fun e he => (hproper e he).plain
  refine ⟨by rw [hflags, hflags', h.links], ?_⟩
  refine
    { terms := ?_
      glossaries := ?_
      links := by rw [hlinks, hlinks', h.links]
      proper := ?_
      distinct := ?_
      nodup := hnodup
      filed := OrderedStore.Filed.writeAll ops s h.filed
      plain := hplain }
  · rw [hg, hs]
    exact h.terms
  · rw [hg, hs]
    exact h.glossaries
  · intro e he
    rw [hlinks'] at he
    rcases mem_of_mem_batchResult ops _ he with he | he
    · exact h.proper e he
    · exact hproper e he
  · rw [hg]
    exact h.distinct

theorem apply (h : Agree g s) {ops : List EdgeOp} (hops : ∀ op ∈ ops, op.edge.Proper) :
    (Write.apply ops).answer g = (Write.apply ops).answer s ∧
      Agree ((Write.apply ops).run g) ((Write.apply ops).run s) := by
  show ((Store.apply ops).run g).1.map _ = ((Store.apply ops).run s).1.map _ ∧
    Agree ((Store.apply ops).run g).2 ((Store.apply ops).run s).2
  rw [TermGraph.apply_run, OrderedStore.apply_run, h.firstError?_eq hops]
  cases hfirst : g.firstUnknownEnd? ops with
  | some error => exact ⟨rfl, h⟩
  | none =>
      obtain ⟨hflags, hagree⟩ :=
        h.writeAll ops hops (TermGraph.firstUnknownEnd?_eq_none_iff.1 hfirst)
      exact ⟨congrArg (fun flags => Except.ok (Answer.flags flags)) hflags, hagree⟩

/-- A single write is a batch of one. -/
theorem writeOne (h : Agree g s) (op : EdgeOp) (hop : op.edge.Proper)
    (hends : ∀ e, op = .add e → g.knowsEnds e = true) :
    (g.write op).1 = (s.write op).1 ∧ Agree (g.write op).2 (s.write op).2 := by
  obtain ⟨hflags, hagree⟩ := h.writeAll [op]
    (fun op' hop' => List.mem_singleton.1 hop' ▸ hop)
    (fun e he => hends e (List.mem_singleton.1 he).symm)
  exact ⟨List.head_eq_of_cons_eq hflags, hagree⟩

/-- Every proper write gives the same answer on both stores and keeps them in
agreement. -/
theorem write (h : Agree g s) {w : Write} (hw : w.Proper) :
    w.answer g = w.answer s ∧ Agree (w.run g) (w.run s) := by
  cases w with
  | edit x => exact ⟨h.answer_edit hw, h.edit hw⟩
  | addEdge e =>
      have he : e.Proper := hw
      show ((Store.addEdge e).run g).1.map _ = ((Store.addEdge e).run s).1.map _ ∧
        Agree ((Store.addEdge e).run g).2 ((Store.addEdge e).run s).2
      rw [TermGraph.addEdge_run, OrderedStore.addEdge_run, h.edgeError?_eq he]
      by_cases hends : g.knowsEnds e = true
      · obtain ⟨hflag, hagree⟩ :=
          h.writeOne (.add e) he fun f hf => EdgeOp.add.inj hf ▸ hends
        rw [if_pos hends, if_pos hends]
        exact ⟨congrArg (fun flag => Except.ok (Answer.changed flag)) hflag, hagree⟩
      · rw [if_neg hends, if_neg hends]
        exact ⟨rfl, h⟩
  | removeEdge e =>
      obtain ⟨hflag, hagree⟩ := h.writeOne (.remove e) hw (by intro f hf; cases hf)
      exact ⟨congrArg (fun flag => Except.ok (Answer.changed flag)) hflag, hagree⟩
  | apply ops => exact h.apply hw

/-- A run of proper writes gives the same answers, one by one. -/
theorem writes (ws : List Write) (hws : ∀ w ∈ ws, w.Proper) :
    ∀ {g : TermGraph} {s : OrderedStore}, Agree g s →
      answers ws g = answers ws s ∧ Agree (runWrites ws g) (runWrites ws s) := by
  induction ws with
  | nil => intro g s h; exact ⟨rfl, h⟩
  | cons w rest ih =>
      intro g s h
      obtain ⟨hanswer, hagree⟩ := h.write (hws w List.mem_cons_self)
      obtain ⟨hanswers, hrun⟩ :=
        ih (fun w' hw' => hws w' (List.mem_cons_of_mem w hw')) hagree
      exact ⟨by rw [answers, answers, hanswer, hanswers], hrun⟩

/-! ### Questions -/

theorem liveRecord_eq (h : Agree g s) (id : TermId) : liveRecord g id = liveRecord s id := by
  unfold liveRecord
  rw [TermGraph.record_eq, OrderedStore.record_eq, h.terms]

theorem perm_edges (h : Agree g s) : g.edges.Perm s.allEdges := by
  refine (List.perm_ext_iff_of_nodup h.nodup s.nodup_allEdges).2 fun e => ?_
  rw [← TermGraph.mem_links, h.links]
  exact List.mem_toFinset

/-- Sorting by type and target and reading in the order of keys give one list. -/
theorem edgesFrom_eq (h : Agree g s) {id : TermId} (hid : keySeparator ∉ id.text.toList)
    (filter : TypeFilter) : g.edgesFrom id filter = s.edgesFrom id filter := by
  have hmem : ∀ e, e ∈ g.edgesFrom id filter ↔ e ∈ s.edgesFrom id filter := by
    intro e
    rw [TermGraph.mem_edgesFrom, OrderedStore.mem_edgesFrom hid, h.links]
  have hperm : (g.edgesFrom id filter).Perm (s.edgesFrom id filter) :=
    (List.perm_ext_iff_of_nodup (TermGraph.nodup_edgesFrom h.nodup id filter)
      (s.nodup_edgesFrom id filter)).2 hmem
  have hsorted : (s.edgesFrom id filter).Pairwise fun a b => a.leByType b = true := by
    refine (s.pairwise_key_edgesFrom id filter).imp_of_mem ?_
    intro a b ha hb hlt
    obtain ⟨halinks, hasource, -⟩ := (OrderedStore.mem_edgesFrom hid).1 ha
    obtain ⟨hblinks, hbsource, -⟩ := (OrderedStore.mem_edgesFrom hid).1 hb
    exact Edge.leByType_of_key_lt (hasource.trans hbsource.symm) (h.proper a halinks).type
      (h.proper b hblinks).type hlt
  refine hperm.eq_of_pairwise ?_ (List.pairwise_mergeSort ?_ ?_ _) hsorted
  · intro a b ha hb hab hba
    obtain ⟨-, hasource, -⟩ := TermGraph.mem_edgesFrom.1 ha
    obtain ⟨-, hbsource, -⟩ := (OrderedStore.mem_edgesFrom hid).1 hb
    exact Edge.leByType_antisymm (hasource.trans hbsource.symm) hab hba
  · exact fun _ _ _ => Edge.leByType_trans
  · exact Edge.leByType_total

theorem perm_members (h : Agree g s) (id : GlossaryId) : (g.members id).Perm (s.members id) := by
  refine (List.perm_ext_iff_of_nodup (h.distinct.nodup_members id)
    (h.filed.nodup_members id)).2 fun t => ?_
  rw [h.distinct.mem_members, h.filed.mem_members, h.terms]

theorem answerAlike (h : Agree g s) : AnswerAlike g s where
  term id := congrArg Except.ok (h.terms id)
  isLive id := by rw [isLive_run, isLive_run, h.liveRecord_eq]
  glossary id := congrArg (fun table : Table Glossary => Except.ok (table.get? id.text)) h.glossaries
  edgesFrom id filter hid :=
    congrArg Except.ok (h.edgesFrom_eq (TermId.isStorable_iff.1 hid) filter)
  usage := congrArg Except.ok (countTypes_perm h.perm_edges)
  edges := ⟨_, _, rfl, rfl, h.perm_edges⟩
  members id := ⟨_, _, rfl, rfl, h.perm_members id⟩

end Agree

/-- Whatever proper writes are made, the store in memory and the ordered store give
the same answers all along, and end in states that answer alike. -/
theorem answer_alike_after_writes (ws : List Write) (hws : ∀ w ∈ ws, w.Proper) :
    answers ws (EditableStore.empty : TermGraph) = answers ws (EditableStore.empty : OrderedStore) ∧
      AnswerAlike (runWrites ws (EditableStore.empty : TermGraph))
        (runWrites ws (EditableStore.empty : OrderedStore)) := by
  obtain ⟨hanswers, hagree⟩ := Agree.writes ws hws Agree.empty
  exact ⟨hanswers, hagree.answerAlike⟩

/-- A run with a batch, a repeated edge, an unknown end, and a term that is deleted
and written again under another name. -/
def mixedWrites : List Write :=
  let glossary : Glossary := { id := ⟨"art"⟩, name := "Art" }
  let broader : Edge := { source := ⟨"cubism"⟩, target := ⟨"painting"⟩, type := "broader" }
  let narrower : Edge := { source := ⟨"painting"⟩, target := ⟨"cubism"⟩, type := "narrower" }
  [.edit (.putGlossary glossary), .edit (.putTerm (.topLevel ⟨"cubism"⟩ glossary "Cubism")),
    .edit (.putTerm (.topLevel ⟨"painting"⟩ glossary "Painting")),
    .apply [.add broader, .add narrower, .remove broader, .add broader], .addEdge broader,
    .addEdge { broader with target := ⟨"ghost"⟩ }, .edit (.deleteTerm ⟨"painting"⟩),
    .removeEdge narrower, .edit (.putTerm (.topLevel ⟨"painting"⟩ glossary "Pictures"))]

theorem answer_alike_after_mixedWrites :
    (∀ w ∈ mixedWrites, w.Proper) ∧
      answers mixedWrites (EditableStore.empty : OrderedStore) =
        [.ok .done, .ok .done, .ok .done, .ok (.flags [true, true, true, true]),
          .ok (.changed false), .error (.refused (.notFound "ghost")), .ok .done,
          .ok (.changed true), .ok .done] ∧
      answers mixedWrites (EditableStore.empty : TermGraph) =
        answers mixedWrites (EditableStore.empty : OrderedStore) ∧
      AnswerAlike (runWrites mixedWrites (EditableStore.empty : TermGraph))
        (runWrites mixedWrites (EditableStore.empty : OrderedStore)) := by
  have hproper : ∀ w ∈ mixedWrites, w.Proper := by decide +kernel
  exact ⟨hproper, rfl, answer_alike_after_writes mixedWrites hproper⟩

end Thesaurus
