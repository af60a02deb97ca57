import Mathlib.Data.Finset.Card
import Thesaurus.Proofs.Pairing

/-!
# Relations counted as wholes

A relation is an edge with the edge it implies, so relations are the plans of
edges, taken as sets. A set of edges that holds implied edges along with the edges
that imply them is made up of such wholes: an edge is stored exactly when its whole
relation is.

Adding the plans of edges brings in the relations that were asked for and not there as
wholes. Their number is the same whichever edges of them were asked for, how often, and
in which order, also where single edges of a relation were there.

## Main definitions

* `InverseClosed`: edges are stored with what they imply.
* `wholes`: the relations all of whose edges are stored.
* `newWholes`: the relations that are asked for and not there as wholes.

## Main results

* `card_newWholes_append`: new relations, counted in two goes.
* `InverseClosed.newWholes_eq_sdiff`: new relations, counted before and after.
-/

namespace Thesaurus

/-- Edges are stored with what they imply. -/
def InverseClosed (r : Registry) (edges : Finset Edge) : Prop :=
  ∀ e ∈ edges, ∀ f, e.inverse? r = some f → f ∈ edges

/-- The relation of an edge: the edge and what it implies, as a set. -/
def Edge.whole (r : Registry) (e : Edge) : Finset Edge := (e.plan r).toFinset

/-- The relations all of whose edges are among these. -/
def wholes (r : Registry) (edges : Finset Edge) : Finset (Finset Edge) :=
  (edges.image (Edge.whole r)).filter (· ⊆ edges)

variable {r : Registry} {edges : Finset Edge} {e f : Edge}

namespace InverseClosed

theorem empty (r : Registry) : InverseClosed r ∅ :=
  fun e he => absurd he (Finset.notMem_empty e)

theorem union {more : Finset Edge} (h : InverseClosed r edges) (hmore : InverseClosed r more) :
    InverseClosed r (edges ∪ more) := by
  intro e he f hf
  rcases Finset.mem_union.1 he with he | he
  · exact Finset.mem_union_left _ (h e he f hf)
  · exact Finset.mem_union_right _ (hmore e he f hf)

theorem whole (r : Registry) (e : Edge) : InverseClosed r (e.whole r) := by
  intro f hf g hg
  exact List.mem_toFinset.2 (Edge.mem_plan_of_inverse? (List.mem_toFinset.1 hf) hg)

theorem whole_subset_iff (h : InverseClosed r edges) : e.whole r ⊆ edges ↔ e ∈ edges := by
  constructor
  · intro hsubset
    exact hsubset (List.mem_toFinset.2 Edge.self_mem_plan)
  · intro he f hf
    rcases Edge.mem_plan.1 (List.mem_toFinset.1 hf) with rfl | hinverse
    · exact he
    · exact h e he f hinverse

theorem mem_wholes_iff (h : InverseClosed r edges) {relation : Finset Edge} :
    relation ∈ wholes r edges ↔ ∃ e ∈ edges, e.whole r = relation := by
  unfold wholes
  rw [Finset.mem_filter, Finset.mem_image]
  constructor
  · exact fun hrelation => hrelation.1
  · rintro ⟨e, he, rfl⟩
    exact ⟨⟨e, he, rfl⟩, h.whole_subset_iff.2 he⟩

end InverseClosed

theorem Edge.self_mem_whole : e ∈ e.whole r := List.mem_toFinset.2 Edge.self_mem_plan

/-- The edges of one relation all have that relation. -/
theorem Edge.whole_eq_of_mem (h : f ∈ e.whole r) : f.whole r = e.whole r := by
  refine Finset.Subset.antisymm ?_ ?_
  · exact (InverseClosed.whole r e).whole_subset_iff.2 h
  · refine (InverseClosed.whole r f).whole_subset_iff.2 ?_
    rcases Edge.mem_plan.1 (List.mem_toFinset.1 h) with rfl | hinverse
    · exact Edge.self_mem_whole
    · exact List.mem_toFinset.2 (Edge.mem_plan.2 (.inr (Edge.inverse?_symm hinverse)))

/-! ## Relations that are asked for -/

/-- The relations of these edges that are not there as wholes. -/
def newWholes (r : Registry) (edges : Finset Edge) (asked : List Edge) : Finset (Finset Edge) :=
  (asked.toFinset.image (Edge.whole r)).filter fun relation => ¬ relation ⊆ edges

variable {relation : Finset Edge} {asked first rest : List Edge}

theorem mem_newWholes_iff :
    relation ∈ newWholes r edges asked ↔
      (∃ e ∈ asked, e.whole r = relation) ∧ ¬ relation ⊆ edges := by
  unfold newWholes
  rw [Finset.mem_filter, Finset.mem_image]
  simp only [List.mem_toFinset]

theorem newWholes_perm {asked' : List Edge} (h : asked.Perm asked') :
    newWholes r edges asked' = newWholes r edges asked := by
  rw [newWholes, newWholes, List.toFinset_eq_of_perm _ _ h]

theorem mem_planned_iff :
    f ∈ (asked.flatMap (·.plan r)).toFinset ↔ ∃ e ∈ asked, f ∈ e.whole r := by
  rw [List.mem_toFinset, List.mem_flatMap]
  simp only [Edge.whole, List.mem_toFinset]

theorem whole_subset_planned (h : e ∈ asked) :
    e.whole r ⊆ (asked.flatMap (·.plan r)).toFinset :=
  fun _ hf => mem_planned_iff.2 ⟨e, h, hf⟩

/-- What is asked for brings in a relation as a whole only by asking for it: an edge of the
relation comes from one that is asked for, and both have the same relation. -/
theorem whole_subset_union_planned_iff :
    e.whole r ⊆ edges ∪ (asked.flatMap (·.plan r)).toFinset ↔
      e.whole r ⊆ edges ∨ ∃ a ∈ asked, a.whole r = e.whole r := by
  constructor
  · intro hsubset
    by_cases hstored : e.whole r ⊆ edges
    · exact .inl hstored
    · obtain ⟨f, hf, hnew⟩ := Finset.not_subset.1 hstored
      obtain ⟨a, ha, hfa⟩ := mem_planned_iff.1 ((Finset.mem_union.1 (hsubset hf)).resolve_left hnew)
      exact .inr ⟨a, ha, (Edge.whole_eq_of_mem hfa).symm.trans (Edge.whole_eq_of_mem hf)⟩
  · rintro (hstored | ⟨a, ha, hsame⟩)
    · exact hstored.trans Finset.subset_union_left
    · exact hsame ▸ (whole_subset_planned ha).trans Finset.subset_union_right

/-- New relations are counted alike in one go and in two. -/
theorem card_newWholes_append (edges : Finset Edge) (first rest : List Edge) :
    (newWholes r edges (first ++ rest)).card = (newWholes r edges first).card +
      (newWholes r (edges ∪ (first.flatMap (·.plan r)).toFinset) rest).card := by
  have hsplit : newWholes r edges (first ++ rest) = newWholes r edges first ∪
      newWholes r (edges ∪ (first.flatMap (·.plan r)).toFinset) rest := by
    ext relation
    simp only [Finset.mem_union, mem_newWholes_iff, List.mem_append]
    constructor
    · rintro ⟨⟨e, he, rfl⟩, hnew⟩
      by_cases hfirst : ∃ a ∈ first, a.whole r = e.whole r
      · exact .inl ⟨hfirst, hnew⟩
      · refine .inr ⟨⟨e, he.resolve_left fun h => hfirst ⟨e, h, rfl⟩, rfl⟩, ?_⟩
        rw [whole_subset_union_planned_iff]
        exact not_or.2 ⟨hnew, hfirst⟩
    · rintro (⟨⟨e, he, rfl⟩, hnew⟩ | ⟨⟨e, he, rfl⟩, hnew⟩)
      · exact ⟨⟨e, .inl he, rfl⟩, hnew⟩
      · exact ⟨⟨e, .inr he, rfl⟩, fun h => hnew (h.trans Finset.subset_union_left)⟩
  have hdisjoint : Disjoint (newWholes r edges first)
      (newWholes r (edges ∪ (first.flatMap (·.plan r)).toFinset) rest) := by
    refine Finset.disjoint_left.2 fun relation hfirst hrest => ?_
    obtain ⟨⟨e, he, rfl⟩, -⟩ := mem_newWholes_iff.1 hfirst
    exact (mem_newWholes_iff.1 hrest).2 ((whole_subset_planned he).trans Finset.subset_union_right)
  rw [hsplit, Finset.card_union_of_disjoint hdisjoint]

/-- A relation that is asked for is new if adding it changes anything. -/
theorem card_newWholes_singleton (edges : Finset Edge) (e : Edge) :
    (newWholes r edges [e]).card =
      if (symmDiff edges (edges ∪ e.whole r)).card = 0 then 0 else 1 := by
  have hchange : (symmDiff edges (edges ∪ e.whole r)).card = 0 ↔ e.whole r ⊆ edges := by
    rw [Finset.card_eq_zero, Finset.symmDiff_eq_empty, eq_comm, Finset.union_eq_left]
  simp only [hchange]
  unfold newWholes
  rw [List.toFinset_cons, List.toFinset_nil, Finset.insert_empty, Finset.image_singleton,
    Finset.filter_singleton]
  by_cases hstored : e.whole r ⊆ edges
  · simp [hstored]
  · simp [hstored]

theorem newWholes_eq_empty (h : (asked.flatMap (·.plan r)).toFinset ⊆ edges) :
    newWholes r edges asked = ∅ := by
  refine Finset.eq_empty_of_forall_notMem fun relation hrelation => ?_
  obtain ⟨⟨e, he, rfl⟩, hnew⟩ := mem_newWholes_iff.1 hrelation
  exact hnew ((whole_subset_planned he).trans h)

theorem InverseClosed.planned (r : Registry) (asked : List Edge) :
    InverseClosed r (asked.flatMap (·.plan r)).toFinset := by
  intro f hf g hg
  obtain ⟨e, he, hfe⟩ := mem_planned_iff.1 hf
  exact mem_planned_iff.2 ⟨e, he, InverseClosed.whole r e f hfe g hg⟩

/-- Where implied edges are there, the new relations are those that are there only
afterwards. -/
theorem InverseClosed.newWholes_eq_sdiff (h : InverseClosed r edges) (asked : List Edge) :
    newWholes r edges asked =
      wholes r (edges ∪ (asked.flatMap (·.plan r)).toFinset) \ wholes r edges := by
  have hunion := h.union (.planned r asked)
  have hstored : ∀ f : Edge, f.whole r ∈ wholes r edges ↔ f.whole r ⊆ edges := by
    intro f
    rw [h.mem_wholes_iff, h.whole_subset_iff]
    constructor
    · rintro ⟨g, hg, hwhole⟩
      exact h.whole_subset_iff.1 (hwhole ▸ h.whole_subset_iff.2 hg)
    · exact fun hf => ⟨f, hf, rfl⟩
  ext relation
  rw [mem_newWholes_iff, Finset.mem_sdiff, hunion.mem_wholes_iff]
  constructor
  · rintro ⟨⟨e, he, rfl⟩, hnew⟩
    have hmem : e ∈ edges ∪ (asked.flatMap (·.plan r)).toFinset :=
      Finset.mem_union_right _ (mem_planned_iff.2 ⟨e, he, Edge.self_mem_whole⟩)
    exact ⟨⟨e, hmem, rfl⟩, (hstored e).not.2 hnew⟩
  · rintro ⟨⟨f, hf, rfl⟩, hnew⟩
    have hsubset := (hstored f).not.1 hnew
    have hasked := whole_subset_union_planned_iff.1 (hunion.whole_subset_iff.2 hf)
    exact ⟨hasked.resolve_left hsubset, hsubset⟩

end Thesaurus
