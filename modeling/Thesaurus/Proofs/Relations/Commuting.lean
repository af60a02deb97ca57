import Mathlib.Data.Sym.Sym2
import Thesaurus.Proofs.Rearrangement
import Thesaurus.Proofs.Relations.Mutation
import Thesaurus.Proofs.Session

/-!
# Mutations of different pairs of terms commute

Both edges of a relation join the same two terms, so a mutation only looks at and
changes the edges between the two terms that it names. How a mutation in a sequence
is answered, and what becomes of the edges between two terms, is decided by the
mutations of this one pair. Two sequences that have these in the same order, pair by
pair, cannot be told apart.

## Main definitions

* `Edge.ends`, `Mutation.ends`: the two terms that are meant, in no order.
* `between`: the edges that join two terms.

## Main results

* `between_edgesAfterAll`: the edges of a pair after a sequence.
* `mutations_of_pairs_commute`: the order between pairs makes no difference.
-/

namespace Thesaurus

open Store LawfulStore

/-! ## Pairs of terms -/

/-- The two terms that an edge joins, in no order. -/
def Edge.ends (e : Edge) : Sym2 TermId := s(e.source, e.target)

/-- The two terms that a mutation names, in no order. -/
def Mutation.ends (m : Mutation) : Sym2 TermId := m.edge.ends

/-- An edge and the edge it implies join the same terms. -/
theorem Edge.ends_of_mem_plan {registry : Registry} {e f : Edge} (h : f ∈ e.plan registry) :
    f.ends = e.ends := by
  rcases Edge.mem_plan.1 h with rfl | hinverse
  · rfl
  · obtain ⟨-, hsource, htarget⟩ := Edge.inverse?_eq_some_iff.1 hinverse
    rw [Edge.ends, hsource, htarget, Sym2.eq_swap, Edge.ends]

/-- The edges that join two terms. -/
def between (pair : Sym2 TermId) (edges : Finset Edge) : Finset Edge :=
  edges.filter (·.ends = pair)

theorem mem_between {pair : Sym2 TermId} {edges : Finset Edge} {e : Edge} :
    e ∈ between pair edges ↔ e ∈ edges ∧ e.ends = pair := Finset.mem_filter

/-- Sets of edges are equal if they agree on every pair. -/
theorem eq_of_between_eq {edges edges' : Finset Edge}
    (h : ∀ pair, between pair edges = between pair edges') : edges = edges' := by
  ext e
  have hmem : e ∈ between e.ends edges ↔ e ∈ between e.ends edges' := by rw [h]
  simpa [mem_between] using hmem

/-! ## The edges of a pair -/

section Pairs

variable {σ : Type} [Store σ] (r : Relations) (s : σ) {pair : Sym2 TermId} {m : Mutation}

namespace Mutation

/-- The edges of its own pair change as if there were no others. -/
theorem between_edgesAfter (h : m.ends = pair) (edges : Finset Edge) :
    between pair (m.edgesAfter r s edges) = m.edgesAfter r s (between pair edges) := by
  unfold edgesAfter
  split
  · rfl
  · ext f
    have hplan : f ∈ m.edge.plan r.registry → f.ends = pair :=
      fun hf => (Edge.ends_of_mem_plan hf).trans h
    simp only [mem_between, mem_result]
    split <;> simp_all

/-- The edges of another pair stay as they are. -/
theorem between_edgesAfter_of_ne (h : m.ends ≠ pair) (edges : Finset Edge) :
    between pair (m.edgesAfter r s edges) = between pair edges := by
  unfold edgesAfter
  split
  · rfl
  · ext f
    have hplan : f ∈ m.edge.plan r.registry → f.ends ≠ pair :=
      fun hf hpair => h ((Edge.ends_of_mem_plan hf).symm.trans hpair)
    simp only [mem_between, mem_result]
    split <;> simp_all

/-- A mutation is answered by the edges of its own pair. -/
theorem answer_between (m : Mutation) (edges : Finset Edge) :
    m.answer r s (between m.ends edges) = m.answer r s edges := by
  have hchange : symmDiff (between m.ends edges) (m.result r.registry (between m.ends edges)) =
      symmDiff edges (m.result r.registry edges) := by
    ext f
    have hplan : f ∈ m.edge.plan r.registry → f.ends = m.ends := Edge.ends_of_mem_plan
    simp only [Finset.mem_symmDiff, mem_result, mem_between]
    split <;> simp_all
  simp only [answer, hchange]

end Mutation

/-- What becomes of the edges of a pair is decided by the mutations of the pair. -/
theorem between_edgesAfterAll (mutations : List Mutation) :
    ∀ edges, between pair (edgesAfterAll r s mutations edges) =
      edgesAfterAll r s (mutations.filter (·.ends = pair)) (between pair edges) := by
  induction mutations with
  | nil => intro edges; rfl
  | cons m rest ih =>
      intro edges
      have hrest := ih (m.edgesAfter r s edges)
      by_cases hends : m.ends = pair
      · rw [m.between_edgesAfter r s hends] at hrest
        simpa [edgesAfterAll, hends] using hrest
      · rw [m.between_edgesAfter_of_ne r s hends] at hrest
        simpa [edgesAfterAll, hends] using hrest

variable {mutations mutations' : List Mutation}

/-- Rearranged mutations lead to the same edges. -/
theorem edgesAfterAll_rearranged (h : Rearrangement Mutation.ends mutations mutations')
    (edges : Finset Edge) :
    edgesAfterAll r s mutations' edges = edgesAfterAll r s mutations edges := by
  refine eq_of_between_eq fun pair => ?_
  rw [between_edgesAfterAll, between_edgesAfterAll, h.filter_eq]

/-- A mutation is answered at its new place as it was at the old one: the mutations of
its pair that come before it are the same. -/
theorem answer_rearranged (h : Rearrangement Mutation.ends mutations mutations')
    (i : Fin mutations.length) (edges : Finset Edge) :
    (mutations.get i).answer r s (edgesAfterAll r s (mutations'.take (h.place i)) edges) =
      (mutations.get i).answer r s (edgesAfterAll r s (mutations.take i) edges) := by
  rw [← Mutation.answer_between, between_edgesAfterAll, h.filter_take_eq,
    ← between_edgesAfterAll, Mutation.answer_between]

end Pairs

/-! ## The order between pairs -/

/-- In every state that sessions lead to: mutations that are made in another order, in
which those of one pair of terms keep their order, lead to the same edges, and each
of them is answered alike, with the same error or with the same edges and the same
number of changes. -/
theorem mutations_of_pairs_commute (b : Backend) (s : b.State) (hs : Reached s) (r : Relations)
    {mutations mutations' : List Mutation}
    (h : Rearrangement Mutation.ends mutations mutations') :
    links (runMutations r mutations' s).2 = links (runMutations r mutations s).2 ∧
      ∀ i : Fin mutations.length, ∃ answer,
        (runMutations r mutations s).1[i.val]? = some answer ∧
          (runMutations r mutations' s).1[(h.place i).val]? = some answer := by
  have hhealthy : Healthy s := healthy_of_reached hs
  obtain ⟨hlinks, hanswers⟩ := runMutations_spec r mutations hhealthy
  obtain ⟨hlinks', hanswers'⟩ := runMutations_spec r mutations' hhealthy
  refine ⟨?_, fun i => ?_⟩
  · rw [hlinks, hlinks', edgesAfterAll_rearranged r s h]
  · have hget : mutations[i.val]? = some (mutations.get i) := List.getElem?_eq_getElem i.isLt
    have hget' : mutations'[(h.place i).val]? = some (mutations.get i) := by
      rw [← h.same i]
      exact List.getElem?_eq_getElem (h.place i).isLt
    refine ⟨_, (hanswers i.val).trans (by rw [hget]; rfl), ?_⟩
    rw [hanswers', hget', Option.map_some, answer_rearranged r s h]

/-- A relation is added, one of another pair, and the first is removed from its other
side. -/
def addBothRemoveFirst : List Mutation := [
  .add ⟨⟨"cubism"⟩, ⟨"painting"⟩, "broader"⟩,
  .add ⟨⟨"cubism"⟩, ⟨"sculpture"⟩, "relatedTo"⟩,
  .remove ⟨⟨"painting"⟩, ⟨"cubism"⟩, "narrower"⟩]

/-- The same with the other pair last. -/
def addRemoveAddOther : List Mutation := [
  .add ⟨⟨"cubism"⟩, ⟨"painting"⟩, "broader"⟩,
  .remove ⟨⟨"painting"⟩, ⟨"cubism"⟩, "narrower"⟩,
  .add ⟨⟨"cubism"⟩, ⟨"sculpture"⟩, "relatedTo"⟩]

/-- The removal changes two edges, whether the other pair comes before it or after. -/
theorem removal_commutes_with_other_pair :
    let e : Message.Engine := .ofSettings .builtin {}
    let sculpture : Term := .topLevel ⟨"sculpture"⟩ { id := ⟨"art"⟩, name := "Art" } "Sculpture"
    let s : Backend.State .ordered :=
      runActions e (writeTwoTerms ++ [.edit (.putTerm sculpture)]) EditableStore.empty
    Reached s ∧
      links (runMutations e.relations addRemoveAddOther s).2 =
        links (runMutations e.relations addBothRemoveFirst s).2 ∧
      (links (runMutations e.relations addRemoveAddOther s).2).card = 2 ∧
      ∃ answer, (runMutations e.relations addBothRemoveFirst s).1[2]? = some answer ∧
        (runMutations e.relations addRemoveAddOther s).1[1]? = some answer ∧
          answer.map Outcome.changed = .ok 2 := by
  intro e sculpture s
  have hs : Reached s := reached_runActions e _ _ .empty
  let h : Rearrangement Mutation.ends addBothRemoveFirst addRemoveAddOther := {
    place := Equiv.swap (1 : Fin 3) (2 : Fin 3)
    same := by decide
    order := by decide }
  obtain ⟨hlinks, hanswers⟩ := mutations_of_pairs_commute .ordered s hs e.relations h
  refine ⟨hs, hlinks, by decide +kernel, ?_⟩
  obtain ⟨answer, hbefore, hafter⟩ := hanswers (2 : Fin 3)
  refine ⟨answer, hbefore, hafter, ?_⟩
  have hchanged : ((runMutations e.relations addBothRemoveFirst s).1[2]?).map
      (Except.map Outcome.changed) = some (.ok 2) := by decide +kernel
  have hanswer : (runMutations e.relations addBothRemoveFirst s).1[2]? = some answer := hbefore
  rw [hanswer] at hchanged
  exact Option.some.inj hchanged

end Thesaurus
