import Thesaurus.Proofs.Store.Memory
import Thesaurus.Proofs.Store.Ordered

/-!
# The stores that never fail by themselves

The store in memory and the ordered store obey the same laws, so a theorem about
requests is proved once and holds of either.

## Main results

* `Backend.exists_edges`: either store lists every edge once, and counts what it lists.
* `Backend.exists_live`: either store has finitely many live terms.
-/

namespace Thesaurus

/-- A choice between the store in memory and the ordered store. -/
inductive Backend
  | memory
  | ordered
deriving DecidableEq, Repr

/-- The states of the chosen store. -/
abbrev Backend.State : Backend → Type
  | .memory => TermGraph
  | .ordered => OrderedStore

instance : (b : Backend) → EditableStore b.State
  | .memory => inferInstanceAs (EditableStore TermGraph)
  | .ordered => inferInstanceAs (EditableStore OrderedStore)

instance : (b : Backend) → LawfulStore b.State
  | .memory => inferInstanceAs (LawfulStore TermGraph)
  | .ordered => inferInstanceAs (LawfulStore OrderedStore)

/-- Each edge is listed once, and counts are counts of the list. -/
theorem Backend.exists_edges (b : Backend) {s : b.State} (h : LawfulStore.Sound s) :
    ∃ edges : List Edge, Store.edges.run s = (.ok edges, s) ∧
      Store.usage.run s = (.ok (countTypes edges), s) ∧
        edges.toFinset = Store.links s ∧ edges.Nodup := by
  cases b with
  | memory => exact ⟨TermGraph.edges s, rfl, rfl, rfl, h⟩
  | ordered => exact ⟨OrderedStore.allEdges s, rfl, rfl, rfl, OrderedStore.nodup_allEdges s⟩

/-- All identities that have a record can be listed. -/
theorem Backend.exists_recorded (b : Backend) (s : b.State) :
    ∃ ids : List TermId, ∀ id, Store.Known s id → id ∈ ids := by
  cases b with
  | memory =>
      refine ⟨(TermGraph.nodes s).map (·.term.id), fun id hid => ?_⟩
      obtain ⟨t, ht⟩ := Option.isSome_iff_exists.1 hid
      obtain ⟨n, hn, -⟩ := Option.map_eq_some_iff.1 ht
      have hmatch := List.find?_some hn
      rw [← beq_iff_eq.1 hmatch]
      exact List.mem_map_of_mem (List.mem_of_find?_eq_some hn)
  | ordered =>
      refine ⟨(OrderedStore.terms s).keys.map TermId.mk, fun id hid => ?_⟩
      exact List.mem_map.2 ⟨id.text, Table.mem_keys_iff.2 hid, rfl⟩

theorem Backend.exists_live (b : Backend) (s : b.State) :
    ∃ live : Finset TermId, ∀ id, id ∈ live ↔ (Store.liveRecord s id).isSome = true := by
  obtain ⟨ids, hids⟩ := b.exists_recorded s
  refine ⟨(ids.filter fun id => (Store.liveRecord s id).isSome).toFinset, fun id => ?_⟩
  rw [List.mem_toFinset, List.mem_filter]
  refine ⟨fun h => h.2, fun hlive => ⟨hids id ?_, hlive⟩⟩
  obtain ⟨t, ht⟩ := Option.isSome_iff_exists.1 hlive
  exact Option.isSome_iff_exists.2 ⟨t, (Store.liveRecord_eq_some_iff.1 ht).1⟩

end Thesaurus
