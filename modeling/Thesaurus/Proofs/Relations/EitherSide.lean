import Thesaurus.Proofs.Relations.AnyEdges
import Thesaurus.Proofs.Relations.GlossaryPolicy
import Thesaurus.Proofs.Session

/-!
# Relations from either side

An edge and the edge it implies are two names of one relation. Acceptance of the registry
makes implying an involution, so both names have the same plan, written in opposite
orders. The order of a batch of one kind makes no difference to what it comes to, and so
neither does the name by which a relation is added or removed, also where only one of
its edges is stored.

## Main definitions

* `Interchangeable`: two mutations that come to the same.

## Main results

* `Edge.plan_perm_of_inverse?`: the plans of both sides.
* `mutated_from_either_side`: the mutations through both sides.
-/

namespace Thesaurus

open Store LawfulStore

/-! ## The two names of a relation -/

section Names

variable {registry : Registry} {e f : Edge}

theorem Edge.plan_of_inverse? (h : e.inverse? registry = some f) : e.plan registry = [e, f] := by
  rw [plan, h]
  rfl

/-- Both edges of a relation have the same plan, up to its order. -/
theorem Edge.plan_perm_of_inverse? (h : e.inverse? registry = some f) :
    (f.plan registry).Perm (e.plan registry) := by
  rw [plan_of_inverse? h, plan_of_inverse? (inverse?_symm h)]
  exact List.Perm.swap e f []

theorem Edge.whole_eq_of_inverse? (h : e.inverse? registry = some f) :
    f.whole registry = e.whole registry :=
  List.toFinset_eq_of_perm _ _ (plan_perm_of_inverse? h)

theorem Edge.contains_type_of_inverse? (h : e.inverse? registry = some f) :
    registry.contains e.type = true :=
  Registry.contains_of_implied? (inverse?_eq_some_iff.1 h).1

end Names

/-! ## Mutations through both sides -/

/-- Two mutations that come to the same in a state: both succeed and lead to these edges,
and both report the same number of changes among the same edges. -/
def Interchangeable {σ : Type} [Store σ] (act act' : RelationM σ Outcome) (s : σ)
    (edges : Finset Edge) : Prop :=
  ∃ o o' t t', act.run s = (.ok o, t) ∧ act'.run s = (.ok o', t') ∧
    o.changed = o'.changed ∧ o.edges.Perm o'.edges ∧ Mutates s t o edges ∧ Mutates s t' o' edges

namespace Relations

variable {σ : Type} [EditableStore σ] [LawfulStore σ] (r : Relations) {s : σ} {e f : Edge}

theorem interchangeable_of_leadsTo {act act' : RelationM σ Outcome} {edges : Finset Edge}
    (h : e.inverse? r.registry = some f)
    (hact : ∃ t, act.run s = (.ok (r.outcome s e edges), t) ∧ LeadsTo s t edges)
    (hact' : ∃ t, act'.run s = (.ok (r.outcome s f edges), t) ∧ LeadsTo s t edges) :
    Interchangeable act act' s edges := by
  obtain ⟨t, hrun, hleads⟩ := hact
  obtain ⟨t', hrun', hleads'⟩ := hact'
  exact ⟨_, _, t, t', hrun, hrun', rfl, (Edge.plan_perm_of_inverse? h).symm,
    r.mutates_of_leadsTo hleads, r.mutates_of_leadsTo hleads'⟩

theorem losses_eq_of_inverse? [ShrinkingStore σ] (h : e.inverse? r.registry = some f) :
    r.losses σ f = r.losses σ e :=
  List.toFinset_eq_of_perm _ _ ((Edge.plan_perm_of_inverse? h).map _)

theorem interchangeable_remove [ShrinkingStore σ] (hs : Sound s)
    (h : e.inverse? r.registry = some f) :
    Interchangeable (r.remove e.source e.target e.type) (r.remove f.source f.target f.type) s
      (links s \ r.losses σ e) := by
  have hback := Edge.inverse?_symm h
  have hother := r.remove_run_of_sound hs (Edge.contains_type_of_inverse? hback)
  rw [r.losses_eq_of_inverse? h] at hother
  exact r.interchangeable_of_leadsTo h
    (r.remove_run_of_sound hs (Edge.contains_type_of_inverse? h)) hother

theorem interchangeable_add [GrowingStore σ] (hs : Sound s) (h : e.inverse? r.registry = some f)
    (he : Addable r.registry s e) (hf : Addable r.registry s f) :
    Interchangeable (r.add e.source e.target e.type) (r.add f.source f.target f.type) s
      (links s ∪ e.whole r.registry) := by
  have hother := r.add_run_of_sound hs hf
  rw [Edge.whole_eq_of_inverse? h] at hother
  exact r.interchangeable_of_leadsTo h (r.add_run_of_sound hs he) hother

end Relations

/-- Whatever calls have made of a store, and whichever of the two edges of a relation are
stored: implying leads back, and the relation is removed through either edge with the same
effect and the same number of changes, and added likewise if both edges pass their checks.
Removing leaves none of the two edges, and it leaves all others if the store is the one in
memory, if a session has led to its state, or if the identities can be stored. -/
theorem mutated_from_either_side (b : Backend) (s : b.State) (hs : Built s) (r : Relations)
    (e f : Edge) (h : e.inverse? r.registry = some f) :
    f.inverse? r.registry = some e ∧ (f.plan r.registry).Perm (e.plan r.registry) ∧
      (∃ edges ⊆ links s, Disjoint edges (e.whole r.registry) ∧
        (b = .memory ∨ Reached s ∨ (e.source.isStorable = true ∧ e.target.isStorable = true) →
          edges = links s \ e.whole r.registry) ∧
        Interchangeable (r.remove e.source e.target e.type)
          (r.remove f.source f.target f.type) s edges) ∧
      ((∃ type t, (r.validate e.source e.target e.type).run s = (.ok type, t)) →
        (∃ type t, (r.validate f.source f.target f.type).run s = (.ok type, t)) →
          Interchangeable (r.add e.source e.target e.type) (r.add f.source f.target f.type) s
            (links s ∪ e.whole r.registry)) := by
  have hsound : Sound s := sound_of_built hs
  refine ⟨Edge.inverse?_symm h, Edge.plan_perm_of_inverse? h, ?_, ?_⟩
  · refine ⟨links s \ r.losses b.State e, Finset.sdiff_subset, ?_, ?_,
      r.interchangeable_remove hsound h⟩
    · refine Finset.disjoint_left.2 fun g hg hwhole => ?_
      obtain ⟨hstored, hkept⟩ := Finset.mem_sdiff.1 hg
      exact hkept (r.mem_losses_of_mem_whole hstored hwhole)
    · intro htidy
      refine r.sdiff_losses_eq (Edge.contains_type_of_inverse? h) ?_
      rcases htidy with rfl | hreached | ⟨hsource, htarget⟩
      · exact .inl trivial
      · exact .inl (healthy_of_reached hreached).regular
      · refine .inr fun g hg => ?_
        rcases Edge.mem_plan.1 hg with rfl | hinverse
        · exact hsource
        · rw [(Edge.inverse?_eq_some_iff.1 hinverse).2.1]
          exact htarget
  · intro he hf
    exact r.interchangeable_add hsound h (r.addable_of_validate he) (r.addable_of_validate hf)

/-- A link between terms of two glossaries. -/
def calculatedFrom : Edge := ⟨⟨"a"⟩, ⟨"b"⟩, "calculatedFrom"⟩

/-- The link that it implies. -/
def usedToCalculate : Edge := ⟨⟨"b"⟩, ⟨"a"⟩, "usedToCalculate"⟩

/-- The ordered store with the implied link alone. -/
def halfPair : Backend.State .ordered :=
  (Write.addEdge usedToCalculate).run (Backend.twoGlossaries .ordered)

theorem built_halfPair : Built halfPair := .write _ (built_twoGlossaries .ordered)

theorem links_halfPair : links halfPair = {usedToCalculate} := by decide +kernel

/-- Both sides of the pair pass their checks. -/
theorem validate_halfPair : ∀ e ∈ [calculatedFrom, usedToCalculate], ∃ type t,
    (Relations.validate { registry := .builtin } e.source e.target e.type).run halfPair =
      (.ok type, t) := by
  let r : Relations := { registry := .builtin }
  have hforward : r.verdict halfPair calculatedFrom.source calculatedFrom.target
      calculatedFrom.type = .ok RelationType.builtins[7] := by decide +kernel
  have hbackward : r.verdict halfPair usedToCalculate.source usedToCalculate.target
      usedToCalculate.type = .ok RelationType.builtins[8] := by decide +kernel
  intro e he
  rcases List.mem_pair.1 he with rfl | rfl
  · exact ⟨_, halfPair, hforward ▸ r.validate_run halfPair _ _ _⟩
  · exact ⟨_, halfPair, hbackward ▸ r.validate_run halfPair _ _ _⟩

/-- Either side removes the edge that is there, and adds the one that is not. -/
theorem half_pair_mutated_from_either_side :
    let r : Relations := { registry := .builtin }
    let e := calculatedFrom
    let f := usedToCalculate
    Built halfPair ∧ f.inverse? r.registry = some e ∧
      Interchangeable (r.remove e.source e.target e.type) (r.remove f.source f.target f.type)
        halfPair ∅ ∧
      Interchangeable (r.add e.source e.target e.type) (r.add f.source f.target f.type)
        halfPair {e, f} := by
  intro r e f
  have hinverse : e.inverse? r.registry = some f := by decide +kernel
  have hwhole : e.whole r.registry = {e, f} := by decide +kernel
  have hstorable : e.source.isStorable = true ∧ e.target.isStorable = true := by decide +kernel
  obtain ⟨hback, -, ⟨edges, -, -, hedges, hremove⟩, hadd⟩ :=
    mutated_from_either_side .ordered halfPair built_halfPair r e f hinverse
  have hadd := hadd (validate_halfPair e (by simp [e])) (validate_halfPair f (by simp [f]))
  have hnone : edges = ∅ := by
    rw [hedges (.inr (.inr hstorable)), links_halfPair, hwhole]
    decide +kernel
  have hboth : links halfPair ∪ e.whole r.registry = {e, f} := by
    rw [links_halfPair, hwhole]
    decide +kernel
  exact ⟨built_halfPair, hback, hnone ▸ hremove, hboth ▸ hadd⟩

end Thesaurus
