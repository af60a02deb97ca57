import Mathlib.Data.Finset.Union
import Mathlib.Data.Multiset.Basic
import Thesaurus.Proofs.Relations.EitherSide
import Thesaurus.Proofs.Relations.Mutation

/-!
# Additions converge

Several callers may ask for the same relation, again and again and from either side, and
their requests arrive in some order. Each request brings in what the requests before it
have left out of its relation. Which of them reports a change depends on the order; the
edges in the end do not, and neither does the number of changes that all of them report
together, since every new edge is counted by the one request that found it missing.

## Main definitions

* `totalChanged`: the changes that a list of answers reports.

## Main results

* `Relations.additions_run`: additions one after the other.
* `additions_converge`: additions in any order.
-/

namespace Thesaurus

open Store LawfulStore

/-- The changes that a list of answers reports. -/
def totalChanged : List Outcome → Nat
  | [] => 0
  | o :: rest => o.changed + totalChanged rest

section Additions

variable {σ : Type} [EditableStore σ] [LawfulStore σ] [GrowingStore σ]

/-- Additions one after the other all succeed: an addition changes no terms, so what may be
added at first may be added still. The edges are counted as they come. -/
theorem Relations.additions_run (r : Relations) (es : List Edge) :
    ∀ s : σ, Sound s → (∀ e ∈ es, Addable r.registry s e) →
      ∃ outcomes s', runMutations r (es.map .add) s = (outcomes.map .ok, s') ∧
        outcomes.map (·.edges) = es.map (·.plan r.registry) ∧
        LeadsTo s s' (links s ∪ es.toFinset.biUnion (Edge.whole r.registry)) ∧
        (links s').card = (links s).card + totalChanged outcomes := by
  induction es with
  | nil =>
      intro s hs _
      exact ⟨[], s, rfl, rfl, ⟨(Finset.union_empty _).symm, .refl s, hs⟩, rfl⟩
  | cons e rest ih =>
      intro s hs hes
      obtain ⟨t, hrun, hfirst⟩ := r.add_run_of_sound hs (hes e List.mem_cons_self)
      have hrest : ∀ f ∈ rest, Addable r.registry t f := fun f hf =>
        (hes f (List.mem_cons_of_mem e hf)).of_sameTerms hfirst.sameTerms
      obtain ⟨outcomes, u, hruns, hedges, hsecond, hcard⟩ := ih t hfirst.sound hrest
      refine ⟨r.outcome s e (links s ∪ e.whole r.registry) :: outcomes, u, ?_, ?_, ?_, ?_⟩
      · simp only [List.map_cons, runMutations, Mutation.run, hrun, hruns]
      · rw [List.map_cons, List.map_cons, hedges]
        rfl
      · refine ⟨?_, hfirst.sameTerms.trans hsecond.sameTerms, hsecond.sound⟩
        rw [hsecond.links_eq, hfirst.links_eq, List.toFinset_cons, Finset.biUnion_insert,
          Finset.union_assoc]
      · have hgrown : (links t).card =
            (links s).card + (symmDiff (links s) (links s ∪ e.whole r.registry)).card := by
          rw [hfirst.links_eq, symmDiff_of_le Finset.subset_union_left, Nat.add_comm,
            Finset.card_sdiff_add_card_eq_card Finset.subset_union_left]
        rw [hcard, hgrown, Nat.add_assoc]
        rfl

end Additions

/-- Whatever calls have made of a store: requests to add relations that pass their checks
all succeed, in whichever order they are made, how often whichever of them is repeated,
and from whichever side they ask. In the end there are the edges that were there and
those that the requests plan, and all together the answers report as many changes as
there are edges that were not there before. -/
theorem additions_converge (b : Backend) (s : b.State) (hs : Built s) (r : Relations)
    (requests : Multiset Edge) (hpass : ∀ e ∈ requests, ∃ type t,
      (r.validate e.source e.target e.type).run s = (.ok type, t))
    (order : List Edge) (horder : Multiset.ofList order = requests) :
    let s' := (runMutations r (order.map .add) s).2
    ∃ outcomes, (runMutations r (order.map .add) s).1 = outcomes.map .ok ∧
      outcomes.map (·.edges) = order.map (·.plan r.registry) ∧
      links s' = links s ∪ requests.toFinset.biUnion (Edge.whole r.registry) ∧
      SameTerms s s' ∧ totalChanged outcomes = (links s' \ links s).card := by
  subst horder
  intro s'
  have haddable : ∀ e ∈ order, Addable r.registry s e := fun e he =>
    r.addable_of_validate (hpass e (Multiset.mem_coe.2 he))
  obtain ⟨outcomes, t, hruns, hedges, hleads, hcard⟩ :=
    r.additions_run order s (sound_of_built hs) haddable
  have hs' : s' = t := congrArg Prod.snd hruns
  rw [hs']
  refine ⟨outcomes, congrArg Prod.fst hruns, hedges, hleads.links_eq, hleads.sameTerms, ?_⟩
  have hsubset : links s ⊆ links t := hleads.links_eq ▸ Finset.subset_union_left
  rw [Finset.card_sdiff_of_subset hsubset, hcard, Nat.add_sub_cancel_left]

/-- Three requests for one relation, half of which is there, from one side and from the
other: the first that is made adds the other half, the others add nothing. -/
theorem three_requests_add_one_edge :
    let r : Relations := { registry := .builtin }
    let requests : Multiset Edge := {calculatedFrom, calculatedFrom, usedToCalculate}
    let order := [calculatedFrom, usedToCalculate, calculatedFrom]
    let answers := (runMutations r (order.map .add) halfPair).1
    let s' := (runMutations r (order.map .add) halfPair).2
    Multiset.ofList order = requests ∧
      answers.map (Except.map (·.changed)) = [.ok 1, .ok 0, .ok 0] ∧
      ∃ outcomes, answers = outcomes.map .ok ∧
        totalChanged outcomes = (links s' \ links halfPair).card := by
  intro r requests order answers s'
  have horder : Multiset.ofList order = requests := by decide +kernel
  have hpass : ∀ e ∈ requests, ∃ type t,
      (r.validate e.source e.target e.type).run halfPair = (.ok type, t) := by
    intro e he
    exact validate_halfPair e (by simpa [requests] using he)
  obtain ⟨outcomes, hanswers, -, -, -, htotal⟩ :=
    additions_converge .ordered halfPair built_halfPair r requests hpass order horder
  exact ⟨horder, by decide +kernel, outcomes, hanswers, htotal⟩

end Thesaurus
