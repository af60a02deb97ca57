import Thesaurus.Proofs.Store.Directory
import Thesaurus.Proofs.Store.EdgeOrder

/-!
# Stores without their deleted terms

Stores keep the records of deleted terms and the edges that touch them. Here these
are taken out of a state, from wherever a store keeps them. What is left answers
questions about records and edges as before, but for what was taken out, and lists
the rest in the order in which it stood.

## Main definitions

* `Store.avoidsDeleted`: an edge that touches no deleted record.
* `TermGraph.purged`, `OrderedStore.purged`: a state without its deleted records.
* `Purged`: what that means for answers.

## Main results

* `Backend.isPurged`: either store, purged, answers like that.
-/

namespace Thesaurus

open Store LawfulStore

section Answers

variable {σ : Type} [Store σ]

/-- Whether an identity has a deleted record. -/
def Store.isDeleted (s : σ) (id : TermId) : Bool := (record s id).any (·.deleted)

/-- Whether neither end of an edge has a deleted record. -/
def Store.avoidsDeleted (s : σ) (e : Edge) : Bool :=
  !isDeleted s e.source && !isDeleted s e.target

/-- The second state answers like the first one without its deleted records and the
edges that touch them. -/
structure Purged (s s' : σ) : Prop where
  record_eq : ∀ id, record s' id = liveRecord s id
  glossary_eq : ∀ id, (Store.glossary id).answer? s' = (Store.glossary id).answer? s
  links_eq : links s' = (links s).filter fun e => avoidsDeleted s e = true
  members_eq : ∀ id, membersOf s' id = membersOf s id
  leaving_eq : ∀ id filter, leaving s' id filter = (leaving s id filter).filter (avoidsDeleted s)

theorem Store.isDeleted_eq_false_of_live {s : σ} {id : TermId} {t : Term}
    (h : liveRecord s id = some t) : isDeleted s id = false := by
  obtain ⟨hrecord, hlive⟩ := liveRecord_eq_some_iff.1 h
  rw [isDeleted, hrecord]
  exact hlive

theorem Store.liveRecord_eq_none_of_isDeleted {s : σ} {id : TermId}
    (h : isDeleted s id = true) : liveRecord s id = none := by
  cases hlive : liveRecord s id with
  | none => rfl
  | some t =>
      rw [isDeleted_eq_false_of_live hlive] at h
      cases h

/-- No record is deleted in the purged state, so live records are all records. -/
theorem Purged.liveRecord_eq {s s' : σ} (h : Purged s s') (id : TermId) :
    liveRecord s' id = liveRecord s id := by
  rw [liveRecord, h.record_eq]
  cases hlive : liveRecord s id with
  | none => rfl
  | some t => exact Term.live?_eq_some_iff.2 ⟨rfl, (liveRecord_eq_some_iff.1 hlive).2⟩

end Answers

/-! ## Tables and lists, filtered -/

namespace Table

variable {α : Type}

/-- The entries that pass. -/
def filter (t : Table α) (p : String → α → Bool) : Table α where
  entries := t.entries.filter fun e => p e.1 e.2
  increasing := t.increasing.filter _

theorem get?_filter (t : Table α) (p : String → α → Bool) (key : String) :
    (t.filter p).get? key = (t.get? key).filter (p key) := by
  refine Option.ext fun a => ?_
  rw [← mem_entries_iff, Option.filter_eq_some_iff, ← mem_entries_iff]
  exact List.mem_filter

theorem keys_filter (t : Table α) (p : String → Bool) :
    (t.filter fun key _ => p key).keys = t.keys.filter p :=
  List.filter_map.symm

theorem values_filter (t : Table α) (p : α → Bool) :
    (t.filter fun _ a => p a).values = t.values.filter p :=
  List.filter_map.symm

end Table

/-- The edges of one source keep their order when some of them are left out. -/
theorem Edge.filter_mergeSort_leByType {id : TermId} (p : Edge → Bool) {edges : List Edge}
    (h : ∀ e ∈ edges, e.source = id) :
    (edges.filter p).mergeSort Edge.leByType = (edges.mergeSort Edge.leByType).filter p := by
  have hperm : ((edges.filter p).mergeSort Edge.leByType).Perm
      ((edges.mergeSort Edge.leByType).filter p) :=
    (List.mergeSort_perm _ _).trans ((List.mergeSort_perm _ _).filter p).symm
  have hsorted : ∀ l : List Edge, (l.mergeSort Edge.leByType).Pairwise (Edge.leByType · ·) :=
    List.pairwise_mergeSort (fun _ _ _ => leByType_trans) leByType_total
  refine hperm.eq_of_pairwise ?_ (hsorted _) ((hsorted edges).filter p)
  intro a b ha hb hab hba
  have hsource : ∀ e ∈ edges.filter p, e.source = id := fun e he => h e (List.mem_filter.1 he).1
  have ha' := hsource a ((List.mergeSort_perm _ _).mem_iff.1 ha)
  have hb' := hsource b (((List.mergeSort_perm _ _).filter p).mem_iff.1 hb)
  exact leByType_antisymm (ha'.trans hb'.symm) hab hba

/-! ## The term graph -/

namespace TermGraph

variable {g : TermGraph} {id : TermId}

/-- The graph without its deleted terms and the edges that touch them. -/
def purged (g : TermGraph) : TermGraph :=
  { g with
    nodes := g.nodes.filter fun n => !n.term.deleted
    names := g.names.filter fun _ id => !isDeleted g id
    edges := g.edges.filter (avoidsDeleted g) }

theorem Distinct.purged (h : g.Distinct) : g.purged.Distinct :=
  (List.filter_sublist.map _).nodup h

theorem term?_purged (h : g.Distinct) (id : TermId) :
    g.purged.term? id = (g.term? id).bind Term.live? := by
  have hfound : ∀ {g' : TermGraph}, g'.Distinct → ∀ t, g'.term? id = some t ↔
      t ∈ g'.nodes.map (·.term) ∧ t.id = id := by
    intro g' hg' t
    rw [hg'.mem_terms_iff]
    constructor
    · intro ht
      have hid := id_of_term? ht
      exact ⟨by rw [hid]; exact ht, hid⟩
    · rintro ⟨ht, rfl⟩
      exact ht
  refine Option.ext fun t => ?_
  rw [hfound h.purged, Option.bind_eq_some_iff]
  constructor
  · rintro ⟨hmem, hid⟩
    obtain ⟨n, hn, rfl⟩ := List.mem_map.1 hmem
    obtain ⟨hnode, hlive⟩ := List.mem_filter.1 hn
    refine ⟨n.term, (hfound h _).2 ⟨List.mem_map_of_mem hnode, hid⟩, ?_⟩
    exact Term.live?_eq_some_iff.2 ⟨rfl, by simpa using hlive⟩
  · rintro ⟨u, hu, hlive⟩
    obtain ⟨rfl, hdeleted⟩ := Term.live?_eq_some_iff.1 hlive
    obtain ⟨hmem, hid⟩ := (hfound h _).1 hu
    obtain ⟨n, hn, rfl⟩ := List.mem_map.1 hmem
    exact ⟨List.mem_map_of_mem (List.mem_filter.2 ⟨hn, by simpa using hdeleted⟩), hid⟩

theorem members_purged (g : TermGraph) (id : GlossaryId) : g.purged.members id = g.members id := by
  have hnodes : (g.purged.nodes.filter fun n => n.term.glossary = id && !n.term.deleted) =
      g.nodes.filter fun n => n.term.glossary = id && !n.term.deleted := by
    unfold purged
    rw [List.filter_filter]
    refine List.filter_congr fun n _ => ?_
    rw [Bool.and_assoc, Bool.and_self]
  rw [members, hnodes, members]

theorem edgesFrom_purged (g : TermGraph) (id : TermId) (filter : TypeFilter) :
    g.purged.edgesFrom id filter = (g.edgesFrom id filter).filter (avoidsDeleted g) := by
  have hsource : ∀ e ∈ g.edges.filter (fun e => e.source = id && filter.accepts e.type),
      e.source = id := by
    intro e he
    have hpasses := (List.mem_filter.1 he).2
    simp only [Bool.and_eq_true, decide_eq_true_eq] at hpasses
    exact hpasses.1
  unfold edgesFrom purged
  rw [← Edge.filter_mergeSort_leByType _ hsource, List.filter_filter, List.filter_filter]
  refine congrArg (List.mergeSort · Edge.leByType) (List.filter_congr fun e _ => ?_)
  exact Bool.and_comm _ _

theorem isPurged (h : g.Distinct) : Purged g g.purged where
  record_eq := term?_purged h
  glossary_eq _ := rfl
  links_eq := by
    ext e
    rw [mem_links, Finset.mem_filter, mem_links]
    exact List.mem_filter
  members_eq := members_purged g
  leaving_eq := edgesFrom_purged g

end TermGraph

/-! ## The ordered store -/

namespace OrderedStore

/-- The store without its deleted terms and the keys of the edges that touch them. -/
def purged (s : OrderedStore) : OrderedStore :=
  { s with
    terms := s.terms.filter fun _ t => !t.deleted
    names := s.names.filter fun _ id => !isDeleted s id
    edgeKeys := s.edgeKeys.filter fun key _ => (Edge.ofKey? key).all (avoidsDeleted s) }

/-- Leaving out keys by their edges leaves out these edges. -/
theorem filterMap_ofKey?_filter (p : Edge → Bool) (keys : List String) :
    (keys.filter fun key => (Edge.ofKey? key).all p).filterMap Edge.ofKey? =
      (keys.filterMap Edge.ofKey?).filter p := by
  rw [List.filterMap_filter, List.filter_filterMap]
  refine List.filterMap_congr fun key _ => ?_
  cases Edge.ofKey? key with
  | none => rfl
  | some e => cases hp : p e <;> simp [Option.filter, hp]

theorem term?_purged (s : OrderedStore) (id : TermId) :
    s.purged.term? id = (s.term? id).bind Term.live? := by
  show (s.terms.filter fun _ t => !t.deleted).get? id.text = _
  rw [Table.get?_filter]
  show (s.term? id).filter _ = _
  cases s.term? id with
  | none => rfl
  | some t => cases hdeleted : t.deleted <;> simp [Term.live?, hdeleted]

theorem members_purged (s : OrderedStore) (id : GlossaryId) :
    s.purged.members id = s.members id := by
  unfold members
  show (((s.terms.filter fun _ t => !t.deleted).values.filter _).mergeSort _) = _
  rw [Table.values_filter, List.filter_filter]
  refine congrArg (List.mergeSort · _) (List.filter_congr fun t _ => ?_)
  rw [Bool.and_assoc, Bool.and_self]

theorem allEdges_purged (s : OrderedStore) :
    s.purged.allEdges = s.allEdges.filter (avoidsDeleted s) := by
  unfold allEdges purged
  rw [Table.keys_filter, filterMap_ofKey?_filter]

theorem edgesFrom_purged (s : OrderedStore) (id : TermId) (filter : TypeFilter) :
    s.purged.edgesFrom id filter = (s.edgesFrom id filter).filter (avoidsDeleted s) := by
  unfold edgesFrom scan purged
  rw [Table.keys_filter, List.filter_comm, filterMap_ofKey?_filter, List.filter_comm]

theorem isPurged (s : OrderedStore) : Purged s s.purged where
  record_eq := term?_purged s
  glossary_eq _ := rfl
  links_eq := by
    ext e
    show e ∈ s.purged.allEdges.toFinset ↔ e ∈ s.allEdges.toFinset.filter _
    rw [allEdges_purged, List.toFinset_filter]
  members_eq := members_purged s
  leaving_eq := edgesFrom_purged s

end OrderedStore

/-- The state of the chosen store without its deleted terms and the edges that touch
them. -/
def Backend.purged : (b : Backend) → b.State → b.State
  | .memory => TermGraph.purged
  | .ordered => OrderedStore.purged

theorem Backend.isPurged (b : Backend) {s : b.State} (hs : Built s) :
    Purged s (b.purged s) := by
  cases b with
  | memory => exact TermGraph.isPurged (TermGraph.distinct_of_built hs)
  | ordered => exact OrderedStore.isPurged s

end Thesaurus
