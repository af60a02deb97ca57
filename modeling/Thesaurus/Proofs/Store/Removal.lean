import Thesaurus.Proofs.Store.Backend

/-!
# Removing edges, whatever is stored

The ordered store removes an edge by removing its key. That key may have been written
for another edge, if a source or a type holds the separator of keys. So what is lost
is the edge that is read from the key, and it is the edge that was asked for unless
separators stand in odd places. The store in memory compares edges, and always removes
the one that was asked for.

## Main definitions

* `Edge.reread`: the edge that is read from the key of an edge.
* `ShrinkingStore`: the law.

## Main results

* `OrderedStore.write_remove_spec`: a removal on keys of any kind.
* the instances for both stores.
-/

namespace Thesaurus

open Store LawfulStore

/-- The edge that is read from the key of an edge. -/
def Edge.reread (e : Edge) : Edge := (Edge.ofKey? e.key).getD e

namespace Edge

variable {e : Edge}

theorem ofKey?_key_eq_reread (e : Edge) : ofKey? e.key = some e.reread := by
  obtain ⟨f, hf⟩ := Option.isSome_iff_exists.1 (isSome_ofKey?_key e)
  rw [reread, hf, Option.getD_some]

/-- An edge and the edge that is read from its key have one key. -/
theorem key_reread (e : Edge) : e.reread.key = e.key := key_of_ofKey? e.ofKey?_key_eq_reread

theorem reread_eq (hsource : e.source.isStorable = true) (htype : isTypeName e.type = true) :
    e.reread = e := by
  have hkey := ofKey?_key (TermId.isStorable_iff.1 hsource)
    (keySeparator_notMem_of_isTypeName htype)
  rw [reread, hkey, Option.getD_some]

end Edge

/-- The law of a store from which edges can be removed whatever is stored. -/
class ShrinkingStore (σ : Type) [EditableStore σ] [LawfulStore σ] where
  /-- The edge that is lost when an edge is to be removed. -/
  lost : Edge → Edge
  lost_eq {e : Edge} : e.source.isStorable = true → isTypeName e.type = true → lost e = e
  lost_eq_of_regular {s : σ} {e : Edge} : Regular s → lost e ∈ links s → lost e = e
  lost_eq_of_mem {s : σ} {e : Edge} : e ∈ links s → lost e = e
  removeAll_run {s : σ} (es : List Edge) : Sound s →
    ∃ s', (Store.apply (es.map .remove)).run s =
        (.ok (batchFlags ((es.map lost).map .remove) (links s)), s') ∧
      links s' = links s \ (es.map lost).toFinset ∧ SameTerms s s'

instance : ShrinkingStore TermGraph where
  lost e := e
  lost_eq _ _ := rfl
  lost_eq_of_regular _ _ := rfl
  lost_eq_of_mem _ := rfl
  removeAll_run {s} es hs := by
    have hops : ∀ e, .add e ∈ es.map EdgeOp.remove →
        Known s e.source ∧ Known s e.target ∧ isTypeName e.type = true := by
      intro e he
      obtain ⟨f, -, hf⟩ := List.mem_map.1 he
      cases hf
    obtain ⟨s', hrun, hlinks, -, hterms⟩ := LawfulStore.apply_run hs trivial hops
    rw [batchResult_remove] at hlinks
    rw [List.map_id']
    exact ⟨s', hrun, hlinks, hterms⟩

namespace OrderedStore

variable {s : OrderedStore}

/-- A key is stored exactly when the edge that is read from it is. -/
theorem key_mem_keys_iff_reread (e : Edge) : e.key ∈ s.edgeKeys.keys ↔ e.reread ∈ links s := by
  rw [mem_links]
  constructor
  · intro hkey
    exact ⟨e.key, hkey, e.ofKey?_key_eq_reread⟩
  · rintro ⟨key, hkey, hread⟩
    rw [← e.key_reread, Edge.key_of_ofKey? hread]
    exact hkey

/-- Removing an edge removes the edge that is read from its key. -/
theorem write_remove_spec (s : OrderedStore) (e : Edge) :
    (s.write (.remove e)).1 = EdgeOp.changes (.remove e.reread) (links s) ∧
      links (s.write (.remove e)).2 = (links s).erase e.reread ∧
        Rewired s (s.write (.remove e)).2 := by
  refine ⟨?_, ?_, ⟨_, rfl⟩⟩
  · show s.edgeKeys.contains e.key = decide (e.reread ∈ links s)
    rw [Bool.eq_iff_iff, decide_eq_true_iff, ← key_mem_keys_iff_reread, Table.mem_keys_iff]
  · ext f
    rw [mem_links, Finset.mem_erase, mem_links]
    show (∃ key ∈ (s.edgeKeys.erase e.key).keys, _) ↔ _
    constructor
    · rintro ⟨key, hkey, hread⟩
      obtain ⟨hne, hkey⟩ := Table.mem_keys_erase.1 hkey
      refine ⟨fun hsame => hne ?_, key, hkey, hread⟩
      rw [← Edge.key_of_ofKey? hread, hsame, e.key_reread]
    · rintro ⟨hne, key, hkey, hread⟩
      refine ⟨key, Table.mem_keys_erase.2 ⟨fun hsame => hne ?_, hkey⟩, hread⟩
      rw [hsame] at hread
      exact Option.some.inj (hread.symm.trans e.ofKey?_key_eq_reread)

theorem writeAll_remove_spec (es : List Edge) :
    ∀ s : OrderedStore,
      (s.writeAll (es.map .remove)).1 =
          batchFlags ((es.map Edge.reread).map .remove) (links s) ∧
        links (s.writeAll (es.map .remove)).2 = links s \ (es.map Edge.reread).toFinset ∧
          Rewired s (s.writeAll (es.map .remove)).2 := by
  induction es with
  | nil => intro s; exact ⟨rfl, by simp [writeAll], ⟨s.edgeKeys, rfl⟩⟩
  | cons e rest ih =>
      intro s
      obtain ⟨hflag, hlinks, hframe⟩ := s.write_remove_spec e
      obtain ⟨hflags, hlinks', hframe'⟩ := ih (s.write (.remove e)).2
      refine ⟨?_, ?_, hframe.trans hframe'⟩
      · show (s.write (.remove e)).1 :: ((s.write (.remove e)).2.writeAll (rest.map .remove)).1 = _
        rw [hflag, hflags, hlinks]
        rfl
      · show links ((s.write (.remove e)).2.writeAll (rest.map .remove)).2 = _
        rw [hlinks', hlinks, List.map_cons, List.toFinset_cons, Finset.erase_sdiff_comm,
          Finset.sdiff_insert]

instance : ShrinkingStore OrderedStore where
  lost := Edge.reread
  lost_eq hsource htype := Edge.reread_eq hsource htype
  lost_eq_of_regular {s e} hplain hstored := by
    obtain ⟨f, hf, hkey⟩ := hplain e.key (key_mem_keys_iff_reread e |>.2 hstored)
    obtain rfl : e = f := Edge.eq_of_key_eq_key hf hkey.symm
    exact Option.some.inj (e.ofKey?_key_eq_reread.symm.trans hf.ofKey?_key)
  lost_eq_of_mem {s e} hstored := by
    obtain ⟨key, -, hread⟩ := mem_links.1 hstored
    rw [← Edge.key_of_ofKey? hread] at hread
    exact Option.some.inj (e.ofKey?_key_eq_reread.symm.trans hread)
  removeAll_run {s} es _ := by
    have hfirst : s.firstError? (es.map .remove) = none := by
      refine List.findSome?_eq_none_iff.2 fun op hop => ?_
      obtain ⟨e, -, rfl⟩ := List.mem_map.1 hop
      rfl
    obtain ⟨hflags, hlinks, hframe⟩ := writeAll_remove_spec es s
    refine ⟨(s.writeAll (es.map .remove)).2, ?_, hlinks, hframe.sameTerms⟩
    rw [apply_run, hfirst, ← hflags]

end OrderedStore

instance : (b : Backend) → ShrinkingStore b.State
  | .memory => inferInstanceAs (ShrinkingStore TermGraph)
  | .ordered => inferInstanceAs (ShrinkingStore OrderedStore)

end Thesaurus
