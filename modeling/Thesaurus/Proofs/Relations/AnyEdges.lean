import Thesaurus.Proofs.Relations.Requests
import Thesaurus.Proofs.Store.Growth
import Thesaurus.Proofs.Store.Removal
import Thesaurus.Proofs.Wholes

/-!
# Mutations on any edges

Raw writes can store edges that no request would ask for, and half of a relation without
the other half. Mutations are followed here without asking that there be none of these.
Adding brings in the whole relation; removing takes away what has the keys of its edges.
Either way the state stays fit for the next request.

## Main definitions

* `LeadsTo`: a sound state with other edges and the same terms.
* `Relations.losses`: the edges that go when a relation is removed.

## Main results

* `Relations.add_run_of_sound`, `Relations.remove_run_of_sound`: the two mutations.
* `Relations.sdiff_losses_eq`: where removing takes away the relation and no more.
-/

namespace Thesaurus

open Store LawfulStore ShrinkingStore

variable {σ : Type} [EditableStore σ] [LawfulStore σ]

/-- A sound state that holds these edges and shows the terms of another. -/
structure LeadsTo (s s' : σ) (edges : Finset Edge) : Prop where
  links_eq : links s' = edges
  sameTerms : SameTerms s s'
  sound : Sound s'

namespace Relations

variable (r : Relations) {s s' : σ} {e f : Edge}

/-- What is answered along the way counts the change. -/
theorem mutates_of_leadsTo {edges : Finset Edge} (h : LeadsTo s s' edges) :
    Mutates s s' (r.outcome s e edges) edges where
  links_eq := h.links_eq
  changed_eq := by rw [h.links_eq, outcome]
  sameTerms := h.sameTerms

/-- A relation that may be added is added whole, whatever is stored. -/
theorem add_run_of_sound [GrowingStore σ] (hs : Sound s) (he : Addable r.registry s e) :
    ∃ s', (r.add e.source e.target e.type).run s =
        (.ok (r.outcome s e (links s ∪ e.whole r.registry)), s') ∧
      LeadsTo s s' (links s ∪ e.whole r.registry) := by
  obtain ⟨s', hrun, hlinks, hterms⟩ :=
    GrowingStore.addAll_run hs fun f hf => he.known_of_mem_plan hf
  refine ⟨s', ?_, hlinks, hterms, sound_of_apply_run hs hrun⟩
  rw [r.add_eq_applyPlan he, r.applyPlan_run hrun, count_batchFlags_add]
  rfl

/-- A relation that is there as a whole is left as it is. -/
theorem add_same [GrowingStore σ] (hs : Sound s) (he : Addable r.registry s e)
    (h : e.whole r.registry ⊆ links s) : ((r.add e.source e.target e.type).run s).2 = s := by
  obtain ⟨s', hrun, -, -⟩ := GrowingStore.addAll_run hs fun f hf => he.known_of_mem_plan hf
  have hsame := GrowingStore.addAll_same fun f hf => h (List.mem_toFinset.2 hf)
  rw [hrun] at hsame
  rw [r.add_eq_applyPlan he, r.applyPlan_run hrun, hsame]

/-! ## Removing -/

section Removing

variable [ShrinkingStore σ]

/-- The edges that go when a relation is removed. -/
def losses (σ : Type) [EditableStore σ] [LawfulStore σ] [ShrinkingStore σ] (r : Relations)
    (e : Edge) : Finset Edge :=
  ((e.plan r.registry).map (lost (σ := σ))).toFinset

/-- A relation of a registered type is removed, whatever is stored. -/
theorem remove_run_of_sound (hs : Sound s) (he : r.registry.contains e.type = true) :
    ∃ s', (r.remove e.source e.target e.type).run s =
        (.ok (r.outcome s e (links s \ r.losses σ e)), s') ∧
      LeadsTo s s' (links s \ r.losses σ e) := by
  obtain ⟨s', hrun, hlinks, hterms⟩ := removeAll_run (e.plan r.registry) hs
  refine ⟨s', ?_, hlinks, hterms, sound_of_apply_run hs hrun⟩
  rw [r.remove_eq_applyPlan he, r.applyPlan_run hrun, count_batchFlags_remove]
  rfl

theorem mem_losses_iff : f ∈ r.losses σ e ↔ ∃ g ∈ e.plan r.registry, lost (σ := σ) g = f := by
  rw [losses, List.mem_toFinset, List.mem_map]

/-- No edge of the relation stays. -/
theorem mem_losses_of_mem_whole (hstored : f ∈ links s) (hf : f ∈ e.whole r.registry) :
    f ∈ r.losses σ e :=
  (r.mem_losses_iff).2 ⟨f, List.mem_toFinset.1 hf, lost_eq_of_mem hstored⟩

/-- What goes belongs to the relation if separators stand where they should. One place
where they are looked for is enough: among the stored edges, or in the sources of the
relation. -/
theorem mem_whole_of_mem_losses (he : r.registry.contains e.type = true)
    (hplain : Regular s ∨ ∀ g ∈ e.plan r.registry, g.source.isStorable = true)
    (hstored : f ∈ links s) (hf : f ∈ r.losses σ e) : f ∈ e.whole r.registry := by
  obtain ⟨g, hg, rfl⟩ := r.mem_losses_iff.1 hf
  have hmeant : lost (σ := σ) g = g := by
    cases hplain with
    | inl hregular => exact lost_eq_of_regular hregular hstored
    | inr hstorable =>
        have htype := Registry.isTypeName_of_contains (Edge.contains_type_of_mem_plan he hg)
        exact lost_eq (hstorable g hg) htype
  rw [hmeant]
  exact List.mem_toFinset.2 hg

theorem sdiff_losses_eq (he : r.registry.contains e.type = true)
    (hplain : Regular s ∨ ∀ g ∈ e.plan r.registry, g.source.isStorable = true) :
    links s \ r.losses σ e = links s \ e.whole r.registry := by
  ext f
  rw [Finset.mem_sdiff, Finset.mem_sdiff]
  refine and_congr_right fun hstored => not_congr ⟨?_, ?_⟩
  · exact r.mem_whole_of_mem_losses he hplain hstored
  · exact r.mem_losses_of_mem_whole hstored

end Removing

end Relations

end Thesaurus
