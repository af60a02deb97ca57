import Mathlib.Data.Finset.SymmDiff
import Thesaurus.Edge
import Thesaurus.Proofs.Registry.Acceptance

/-!
# Relations kept whole

A relation is an edge together with the edge it implies. A set of edges is paired
when it holds both or neither of them, for every relation that has two, when no
edge leads back to where it starts, and when all types are registered. Adding or
taking away the plan of an edge keeps a set paired, whatever the flags of the
types are, because implying backwards is an involution.

## Main results

* `Edge.inverse?_symm`: the edge implied by the implied edge is the first edge.
* `Paired.union_plan`, `Paired.sdiff_plan`: relations are added and removed whole.
-/

namespace Thesaurus

namespace Edge

variable {r : Registry} {e f : Edge}

theorem inverse?_eq_some_iff :
    e.inverse? r = some f ↔
      r.implied? e.type = some f.type ∧ f.source = e.target ∧ f.target = e.source := by
  unfold inverse?
  constructor
  · intro h
    obtain ⟨type, htype, rfl⟩ := Option.map_eq_some_iff.1 h
    exact ⟨htype, rfl, rfl⟩
  · rintro ⟨htype, hsource, htarget⟩
    cases f
    simp_all

theorem inverse?_symm (h : e.inverse? r = some f) : f.inverse? r = some e := by
  obtain ⟨htype, hsource, htarget⟩ := inverse?_eq_some_iff.1 h
  exact inverse?_eq_some_iff.2 ⟨Registry.implied?_symm htype, htarget.symm, hsource.symm⟩

theorem mem_plan : f ∈ e.plan r ↔ f = e ∨ e.inverse? r = some f := by
  simp [plan, Option.mem_toList]

theorem self_mem_plan : e ∈ e.plan r := mem_plan.2 (.inl rfl)

/-- Whatever is implied by an edge of a plan belongs to the plan. -/
theorem mem_plan_of_inverse? {g : Edge} (hf : f ∈ e.plan r) (hg : f.inverse? r = some g) :
    g ∈ e.plan r := by
  rcases mem_plan.1 hf with rfl | hinverse
  · exact mem_plan.2 (.inr hg)
  · rw [inverse?_symm hinverse] at hg
    obtain rfl := Option.some.inj hg
    exact self_mem_plan

theorem source_ne_target_of_mem_plan (he : e.source ≠ e.target) (hf : f ∈ e.plan r) :
    f.source ≠ f.target := by
  rcases mem_plan.1 hf with rfl | hinverse
  · exact he
  · obtain ⟨-, hsource, htarget⟩ := inverse?_eq_some_iff.1 hinverse
    rw [hsource, htarget]
    exact he.symm

theorem contains_type_of_mem_plan (he : r.contains e.type = true) (hf : f ∈ e.plan r) :
    r.contains f.type = true := by
  rcases mem_plan.1 hf with rfl | hinverse
  · exact he
  · have hback := (inverse?_eq_some_iff.1 (inverse?_symm hinverse)).1
    exact Registry.contains_of_implied? hback

end Edge

/-- A set of edges that holds relations as wholes. -/
structure Paired (r : Registry) (edges : Finset Edge) : Prop where
  /-- An edge is there with what it implies. -/
  inverse : ∀ e ∈ edges, ∀ f, e.inverse? r = some f → f ∈ edges
  /-- No term is related to itself. -/
  ends : ∀ e ∈ edges, e.source ≠ e.target
  registered : ∀ e ∈ edges, r.contains e.type = true

namespace Paired

variable {r : Registry} {edges : Finset Edge} {e : Edge}

theorem empty (r : Registry) : Paired r ∅ where
  inverse e he := absurd he (Finset.notMem_empty e)
  ends e he := absurd he (Finset.notMem_empty e)
  registered e he := absurd he (Finset.notMem_empty e)

/-- Adding a relation between two terms keeps relations whole. -/
theorem union_plan (h : Paired r edges) (hends : e.source ≠ e.target)
    (htype : r.contains e.type = true) : Paired r (edges ∪ (e.plan r).toFinset) := by
  refine
    { inverse := ?_
      ends := ?_
      registered := ?_ }
  · intro f hf g hg
    rcases Finset.mem_union.1 hf with hf | hf
    · exact Finset.mem_union_left _ (h.inverse f hf g hg)
    · exact Finset.mem_union_right _
        (List.mem_toFinset.2 (Edge.mem_plan_of_inverse? (List.mem_toFinset.1 hf) hg))
  · intro f hf
    rcases Finset.mem_union.1 hf with hf | hf
    · exact h.ends f hf
    · exact Edge.source_ne_target_of_mem_plan hends (List.mem_toFinset.1 hf)
  · intro f hf
    rcases Finset.mem_union.1 hf with hf | hf
    · exact h.registered f hf
    · exact Edge.contains_type_of_mem_plan htype (List.mem_toFinset.1 hf)

/-- Taking a relation away keeps the others whole: an edge that stays cannot imply
one that goes. -/
theorem sdiff_plan (h : Paired r edges) (e : Edge) :
    Paired r (edges \ (e.plan r).toFinset) := by
  refine
    { inverse := ?_
      ends := fun f hf => h.ends f (Finset.mem_sdiff.1 hf).1
      registered := fun f hf => h.registered f (Finset.mem_sdiff.1 hf).1 }
  intro f hf g hg
  obtain ⟨hfedges, hfplan⟩ := Finset.mem_sdiff.1 hf
  refine Finset.mem_sdiff.2 ⟨h.inverse f hfedges g hg, fun hgplan => hfplan ?_⟩
  exact List.mem_toFinset.2
    (Edge.mem_plan_of_inverse? (List.mem_toFinset.1 hgplan) (Edge.inverse?_symm hg))

end Paired

end Thesaurus
