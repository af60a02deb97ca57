import Mathlib.Data.Finset.SymmDiff
import Mathlib.Data.Finset.Card
import Thesaurus.Edge

/-!
# Batches of writes as set operations

What a list of writes makes of a set of edges, and which of the writes change
anything, said without any store. A batch that only adds is a union, a batch that
only removes is a difference, and the number of writes that change something is
the size of the change, even when the batch names an edge twice.

## Main results

* `batchResult_add`, `batchResult_remove`: the set after a batch of one kind.
* `count_batchFlags_add`, `count_batchFlags_remove`: its effective writes counted.
-/

namespace Thesaurus

/-- The edges after a write. -/
def EdgeOp.result : EdgeOp → Finset Edge → Finset Edge
  | .add e, edges => insert e edges
  | .remove e, edges => edges.erase e

/-- Whether a write changes anything. -/
def EdgeOp.changes : EdgeOp → Finset Edge → Bool
  | .add e, edges => decide (e ∉ edges)
  | .remove e, edges => decide (e ∈ edges)

/-- The edges after writes that are applied in their order. -/
def batchResult : List EdgeOp → Finset Edge → Finset Edge
  | [], edges => edges
  | op :: rest, edges => batchResult rest (op.result edges)

/-- Which of the writes change anything where they stand. -/
def batchFlags : List EdgeOp → Finset Edge → List Bool
  | [], _ => []
  | op :: rest, edges => op.changes edges :: batchFlags rest (op.result edges)

/-- A batch brings in no edge that it does not name. -/
theorem mem_of_mem_batchResult {e : Edge} (ops : List EdgeOp) :
    ∀ edges : Finset Edge, e ∈ batchResult ops edges → e ∈ edges ∨ .add e ∈ ops := by
  induction ops with
  | nil => intro edges h; exact .inl h
  | cons op rest ih =>
      intro edges h
      rcases ih _ h with h | h
      · cases op with
        | add f =>
            rcases Finset.mem_insert.1 h with rfl | h
            · exact .inr List.mem_cons_self
            · exact .inl h
        | remove f => exact .inl (Finset.mem_of_mem_erase h)
      · exact .inr (List.mem_cons_of_mem _ h)

/-! ## Batches of one kind -/

theorem batchResult_add (es : List Edge) :
    ∀ edges : Finset Edge, batchResult (es.map .add) edges = edges ∪ es.toFinset := by
  induction es with
  | nil => intro edges; simp [batchResult]
  | cons e rest ih =>
      intro edges
      rw [List.map_cons, batchResult, ih]
      simp only [EdgeOp.result, List.toFinset_cons, Finset.insert_union,
        Finset.union_insert]

theorem batchResult_remove (es : List Edge) :
    ∀ edges : Finset Edge, batchResult (es.map .remove) edges = edges \ es.toFinset := by
  induction es with
  | nil => intro edges; simp [batchResult]
  | cons e rest ih =>
      intro edges
      rw [List.map_cons, batchResult, ih, List.toFinset_cons, EdgeOp.result,
        Finset.erase_sdiff_comm, Finset.sdiff_insert]

/-- A batch that adds counts the edges that were not there. -/
private theorem count_added (es : List Edge) :
    ∀ edges : Finset Edge,
      (batchFlags (es.map .add) edges).count true = (es.toFinset \ edges).card := by
  induction es with
  | nil => intro edges; simp [batchFlags]
  | cons e rest ih =>
      intro edges
      rw [List.map_cons, batchFlags, List.count_cons, ih]
      simp only [EdgeOp.result, EdgeOp.changes, List.toFinset_cons]
      by_cases he : e ∈ edges
      · rw [Finset.insert_eq_of_mem he, Finset.insert_sdiff_of_mem _ he]
        simp [he]
      · have hsplit : insert e rest.toFinset \ edges =
            insert e (rest.toFinset \ insert e edges) := by
          ext f
          by_cases hfe : f = e
          · subst hfe; simp [he]
          · simp [hfe]
        have hnew : e ∉ rest.toFinset \ insert e edges := by simp
        rw [hsplit, Finset.card_insert_of_notMem hnew]
        simp [he]

/-- A batch that removes counts the edges that were there. -/
private theorem count_removed (es : List Edge) :
    ∀ edges : Finset Edge,
      (batchFlags (es.map .remove) edges).count true = (edges ∩ es.toFinset).card := by
  induction es with
  | nil => intro edges; simp [batchFlags]
  | cons e rest ih =>
      intro edges
      rw [List.map_cons, batchFlags, List.count_cons, ih]
      simp only [EdgeOp.result, EdgeOp.changes, List.toFinset_cons]
      by_cases he : e ∈ edges
      · have hsplit : edges ∩ insert e rest.toFinset =
            insert e (edges.erase e ∩ rest.toFinset) := by
          ext f
          by_cases hfe : f = e
          · subst hfe; simp [he]
          · simp [hfe]
        have hgone : e ∉ edges.erase e ∩ rest.toFinset := by simp
        rw [hsplit, Finset.card_insert_of_notMem hgone]
        simp [he]
      · rw [Finset.erase_eq_of_notMem he, Finset.inter_insert_of_notMem he]
        simp [he]

/-! ## The size of a change -/

theorem count_batchFlags_add (es : List Edge) (edges : Finset Edge) :
    (batchFlags (es.map .add) edges).count true =
      (symmDiff edges (edges ∪ es.toFinset)).card := by
  rw [symmDiff_of_le Finset.subset_union_left, Finset.union_sdiff_left]
  exact count_added es edges

theorem count_batchFlags_remove (es : List Edge) (edges : Finset Edge) :
    (batchFlags (es.map .remove) edges).count true =
      (symmDiff edges (edges \ es.toFinset)).card := by
  rw [symmDiff_of_ge Finset.sdiff_subset, Finset.sdiff_sdiff_self_left]
  exact count_removed es edges

end Thesaurus
