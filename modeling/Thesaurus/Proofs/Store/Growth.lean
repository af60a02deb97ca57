import Thesaurus.Proofs.Store.Backend
import Thesaurus.Proofs.Store.Usage

/-!
# Adding edges, whatever is stored

Removing an edge from the ordered store goes by its key, and a raw write can put
the key of one edge where another is meant. Adding is not affected: no edge but
the one to be added has the key of a plain edge. So a batch that only adds edges
between known terms needs no condition on the edges that are already there.

## Main definitions

* `GrowingStore`: the law.

## Main results

* `OrderedStore.writeAll_add_spec`: such a batch on keys of any kind.
* the instances for both stores.
-/

namespace Thesaurus

open Store LawfulStore

/-- The laws of a store that accepts all edges between known terms. -/
class GrowingStore (σ : Type) [EditableStore σ] [LawfulStore σ] : Prop where
  addAll_run {s : σ} {es : List Edge} : Sound s →
    (∀ e ∈ es, Known s e.source ∧ Known s e.target ∧ isTypeName e.type = true) →
      ∃ s', (Store.apply (es.map .add)).run s = (.ok (batchFlags (es.map .add) (links s)), s') ∧
        links s' = links s ∪ es.toFinset ∧ SameTerms s s'
  addAll_same {s : σ} {es : List Edge} : (∀ e ∈ es, e ∈ links s) →
    ((Store.apply (es.map .add)).run s).2 = s

/-- Where batches of all kinds can be relied on, adding is one of them. -/
theorem exists_addAll_run {σ : Type} [EditableStore σ] [LawfulStore σ] {s : σ} {es : List Edge}
    (hs : Sound s) (hregular : Regular s)
    (hes : ∀ e ∈ es, Known s e.source ∧ Known s e.target ∧ isTypeName e.type = true) :
    ∃ s', (Store.apply (es.map .add)).run s = (.ok (batchFlags (es.map .add) (links s)), s') ∧
      links s' = links s ∪ es.toFinset ∧ SameTerms s s' := by
  have hops : ∀ e, .add e ∈ es.map EdgeOp.add →
      Known s e.source ∧ Known s e.target ∧ isTypeName e.type = true := by
    intro e he
    obtain ⟨f, hf, hfe⟩ := List.mem_map.1 he
    obtain rfl := EdgeOp.add.inj hfe
    exact hes f hf
  obtain ⟨s', hrun, hlinks, -, hterms⟩ := LawfulStore.apply_run hs hregular hops
  rw [batchResult_add] at hlinks
  exact ⟨s', hrun, hlinks, hterms⟩

namespace TermGraph

variable {g : TermGraph}

/-- An edge that is there is not added again, known ends or not. -/
theorem write_add_of_mem {e : Edge} (h : e ∈ links g) : (g.write (.add e)).2 = g := by
  unfold write addEdge?
  by_cases hends : g.knowsEnds e = true
  · simp [hends, containsEdge, mem_links.1 h]
  · simp [hends]

theorem writeAll_add_of_mem {es : List Edge} (h : ∀ e ∈ es, e ∈ links g) :
    (g.writeAll (es.map .add)).2 = g := by
  induction es with
  | nil => rfl
  | cons e rest ih =>
      show ((g.write (.add e)).2.writeAll (rest.map .add)).2 = g
      rw [write_add_of_mem (h e List.mem_cons_self)]
      exact ih fun f hf => h f (List.mem_cons_of_mem e hf)

instance : GrowingStore TermGraph where
  addAll_run hs hes := exists_addAll_run hs trivial hes
  addAll_same {g es} h := by
    rw [apply_run]
    split
    · rfl
    · exact writeAll_add_of_mem h

end TermGraph

/-- Setting a key to the value that it has changes nothing. -/
theorem Table.insert_of_get? {α : Type} {t : Table α} {key : String} {a : α}
    (h : t.get? key = some a) : t.insert key a = t := by
  refine ext_get? fun other => ?_
  rw [get?_insert]
  split
  · next hother => rw [hother, h]
  · rfl

namespace OrderedStore

variable {s : OrderedStore} {e : Edge}

/-- A plain edge is stored exactly when its key is, whatever the other keys are. -/
theorem key_mem_keys_iff (he : e.Plain) : e.key ∈ s.edgeKeys.keys ↔ e ∈ links s := by
  rw [mem_links]
  constructor
  · intro hkey
    exact ⟨e.key, hkey, he.ofKey?_key⟩
  · rintro ⟨key, hkey, hread⟩
    rw [Edge.key_of_ofKey? hread]
    exact hkey

/-- Adding a plain edge to keys of any kind. -/
theorem write_add_spec (s : OrderedStore) (he : e.Plain) :
    (s.write (.add e)).1 = EdgeOp.changes (.add e) (links s) ∧
      links (s.write (.add e)).2 = insert e (links s) ∧ Rewired s (s.write (.add e)).2 := by
  refine ⟨?_, ?_, ⟨_, rfl⟩⟩
  · show (!s.edgeKeys.contains e.key) = decide (e ∉ links s)
    rw [Bool.eq_iff_iff, decide_eq_true_iff, ← key_mem_keys_iff he, Table.mem_keys_iff]
    simp
  · ext f
    rw [mem_links, Finset.mem_insert, mem_links]
    show (∃ key ∈ (s.edgeKeys.insert e.key ()).keys, _) ↔ _
    constructor
    · rintro ⟨key, hkey, hread⟩
      rcases Table.mem_keys_insert.1 hkey with rfl | hkey
      · rw [he.ofKey?_key] at hread
        exact .inl (Option.some.inj hread).symm
      · exact .inr ⟨key, hkey, hread⟩
    · rintro (rfl | ⟨key, hkey, hread⟩)
      · exact ⟨f.key, Table.mem_keys_insert.2 (.inl rfl), he.ofKey?_key⟩
      · exact ⟨key, Table.mem_keys_insert.2 (.inr hkey), hread⟩

theorem writeAll_add_spec (es : List Edge) :
    ∀ s : OrderedStore, (∀ e ∈ es, e.Plain) →
      (s.writeAll (es.map .add)).1 = batchFlags (es.map .add) (links s) ∧
        links (s.writeAll (es.map .add)).2 = links s ∪ es.toFinset ∧
          Rewired s (s.writeAll (es.map .add)).2 := by
  induction es with
  | nil => intro s _; exact ⟨rfl, by simp [writeAll], ⟨s.edgeKeys, rfl⟩⟩
  | cons e rest ih =>
      intro s hplain
      obtain ⟨hflag, hlinks, hframe⟩ := s.write_add_spec (hplain e List.mem_cons_self)
      obtain ⟨hflags, hlinks', hframe'⟩ :=
        ih (s.write (.add e)).2 fun f hf => hplain f (List.mem_cons_of_mem e hf)
      refine ⟨?_, ?_, hframe.trans hframe'⟩
      · show (s.write (.add e)).1 :: ((s.write (.add e)).2.writeAll (rest.map .add)).1 = _
        rw [hflag, hflags, hlinks]
        rfl
      · show links ((s.write (.add e)).2.writeAll (rest.map .add)).2 = _
        rw [hlinks', hlinks, List.toFinset_cons, Finset.insert_union, Finset.union_insert]

/-- The key of an edge that is there is not new. -/
theorem write_add_of_mem {e : Edge} (h : e ∈ links s) : (s.write (.add e)).2 = s := by
  obtain ⟨key, hkey, hread⟩ := mem_links.1 h
  have hown : s.edgeKeys.get? e.key = some () := by
    rw [Edge.key_of_ofKey? hread]
    obtain ⟨a, ha⟩ := Option.isSome_iff_exists.1 (Table.mem_keys_iff.1 hkey)
    exact ha
  show { s with edgeKeys := s.edgeKeys.insert e.key () } = s
  rw [Table.insert_of_get? hown]

theorem writeAll_add_of_mem {es : List Edge} (h : ∀ e ∈ es, e ∈ links s) :
    (s.writeAll (es.map .add)).2 = s := by
  induction es with
  | nil => rfl
  | cons e rest ih =>
      show ((s.write (.add e)).2.writeAll (rest.map .add)).2 = s
      rw [write_add_of_mem (h e List.mem_cons_self)]
      exact ih fun f hf => h f (List.mem_cons_of_mem e hf)

instance : GrowingStore OrderedStore where
  addAll_same {s es} h := by
    rw [apply_run]
    split
    · rfl
    · exact writeAll_add_of_mem h
  addAll_run {s es} (h : Filed s) hes := by
    have hplain : ∀ e ∈ es, e.Plain := by
      intro e he
      obtain ⟨hsource, htarget, htype⟩ := hes e he
      exact ⟨h.storable_of_known hsource, h.storable_of_known htarget,
        keySeparator_notMem_of_isTypeName htype⟩
    have hfirst : s.firstError? (es.map .add) = none := by
      refine List.findSome?_eq_none_iff.2 fun op hop => ?_
      obtain ⟨e, he, rfl⟩ := List.mem_map.1 hop
      obtain ⟨hsource, htarget, -⟩ := hes e he
      exact h.edgeError?_eq_none hsource htarget
    obtain ⟨hflags, hlinks, hframe⟩ := writeAll_add_spec es s hplain
    refine ⟨(s.writeAll (es.map .add)).2, ?_, hlinks, hframe.sameTerms⟩
    rw [apply_run, hfirst, ← hflags]

end OrderedStore

instance : (b : Backend) → GrowingStore b.State
  | .memory => inferInstanceAs (GrowingStore TermGraph)
  | .ordered => inferInstanceAs (GrowingStore OrderedStore)

end Thesaurus
