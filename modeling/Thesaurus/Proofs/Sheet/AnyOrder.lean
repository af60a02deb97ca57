import Thesaurus.Proofs.Sheet.Import

/-!
# Imports in any order, and again

Which row of an import writes a relation that several rows ask for, from the one side or
from the other, depends on the order of the rows. What the import comes to does not: the
report is read off the state before it, from the rows that pass and from the relations
that these ask for, and both are the same in every order. After the import nothing that
it asks for is missing, so a second one reports the same but for the relations added,
and leaves the very state that it finds.

## Main results

* `Relations.reportOf_perm`: the report of rows in another order.
* `Relations.reportOf_again`: the report of the same rows once more.
* `import_in_any_order_and_again`: both, for every state of either store.
-/

namespace Thesaurus

open Store LawfulStore

/-! ## Another order -/

section Orders

variable {σ : Type} [Store σ] (r : Relations) {s : σ} {rows rows' : List Row}

namespace Relations

theorem plans_perm {asked asked' : List Edge} (h : asked.Perm asked') :
    r.plans asked' = r.plans asked :=
  (List.toFinset_eq_of_perm _ _ (h.flatMap_right _)).symm

/-- In another order there is another order of failures, and nothing else. -/
theorem reportOf_perm (h : rows.Perm rows') :
    r.reportOf s rows' =
      { r.reportOf s rows with failures := rows'.filterMap (r.rowFailure? s) } := by
  have hasked := h.flatMap_right (r.passedEdges s)
  unfold reportOf
  rw [h.length_eq, h.countP_eq, h.countP_eq, newWholes_perm hasked]

end Relations

end Orders

/-! ## The same rows again -/

section Again

variable {σ : Type} [EditableStore σ] [LawfulStore σ] (r : Relations) {s s' : σ} {rows : List Row}

namespace Relations

theorem passedEdges_of_sameTerms (h : SameTerms s s') : r.passedEdges s' = r.passedEdges s := by
  funext row
  rw [passedEdges, passedEdges, r.rowProblem?_of_sameTerms h, r.rowEdges_of_sameTerms h]

/-- The rows that have been imported fail or pass as before, and what they ask for is
there. -/
theorem reportOf_again (h : Grown r s s' (rows.flatMap (r.passedEdges s))) :
    r.reportOf s' rows = { r.reportOf s rows with added := 0 } := by
  have hstored : r.plans (rows.flatMap (r.passedEdges s)) ⊆ links s' :=
    h.links_eq ▸ Finset.subset_union_right
  have hproblem : r.rowProblem? s' = r.rowProblem? s :=
    funext (r.rowProblem?_of_sameTerms h.sameTerms)
  have hfailure : r.rowFailure? s' = r.rowFailure? s := by
    funext row
    rw [rowFailure?, rowFailure?, hproblem]
  unfold reportOf
  rw [hproblem, hfailure, r.passedEdges_of_sameTerms h.sameTerms, newWholes_eq_empty hstored,
    Finset.card_empty]

end Relations

end Again

/-- Whatever calls have made of a store, and whatever the rows are: the import brings in the
relations that the rows without problems ask for. Rows in another order lead to the same
edges and to the same report, in which the same rows fail for the same reasons, each in
the place of its row. Imported again right afterwards, the rows fail and pass as they
did, add no relation, and leave the state as it is. -/
theorem import_in_any_order_and_again (b : Backend) (r : Relations) (s : b.State) (hs : Built s)
    (rows rows' : List Row) (h : rows.Perm rows') :
    let first := (r.importRows rows).run s
    let other := (r.importRows rows').run s
    first.1 = r.reportOf s rows ∧
      links first.2 = links s ∪ r.plans (rows.flatMap (r.passedEdges s)) ∧
      links other.2 = links first.2 ∧ other.1.failures.Perm first.1.failures ∧
      other.1 = { first.1 with failures := rows'.filterMap (r.rowFailure? s) } ∧
      (r.importRows rows).run first.2 = ({ first.1 with added := 0 }, first.2) := by
  intro first other
  have hsound : Sound s := sound_of_built hs
  obtain ⟨t, hrun, hgrown⟩ := r.importRows_run hsound rows
  obtain ⟨t', hrun', hgrown'⟩ := r.importRows_run hsound rows'
  obtain ⟨t'', hagain, hsame⟩ := r.importRows_run hgrown.sound rows
  have hfirst : first = (r.reportOf s rows, t) := hrun
  have hother : other = (r.reportOf s rows', t') := hrun'
  rw [hfirst, hother]
  refine ⟨rfl, hgrown.links_eq, ?_, (h.filterMap _).symm, r.reportOf_perm h, ?_⟩
  · rw [hgrown.links_eq, hgrown'.links_eq, r.plans_perm (h.flatMap_right _)]
  · have hstored : r.plans (rows.flatMap (r.passedEdges t)) ⊆ links t := by
      rw [r.passedEdges_of_sameTerms hgrown.sameTerms, hgrown.links_eq]
      exact Finset.subset_union_right
    rw [hagain, r.reportOf_again hgrown, hsame.same hstored]

/-- Two rows that ask for one relation from both sides, and one that fails: in either
order one relation is added, and none when the rows are imported again. -/
theorem both_sides_imported_in_any_order :
    let r : Relations := { registry := .builtin }
    let s : Backend.State .ordered :=
      writeArtTerms.foldl (fun s w => w.run s) EditableStore.empty
    let upward : Row := { number := 1, source := "Art.Cubism", cell := "broader:Art.Painting" }
    let downward : Row := { number := 2, source := "Art.Painting", cell := "narrower:Art.Cubism" }
    let unknown : Row := { number := 3, source := "Art.Muse", cell := "" }
    let first := (r.importRows [upward, downward, unknown]).run s
    let other := (r.importRows [unknown, downward, upward]).run s
    let again := (r.importRows [upward, downward, unknown]).run first.2
    Built s ∧ [upward, downward, unknown].Perm [unknown, downward, upward] ∧
      links other.2 = links first.2 ∧ first.1.added = 1 ∧ other.1.added = 1 ∧
      other.1.failures = [{ number := 3, problem := .unknownTerm "Art.Muse" }] ∧
      again.1.failures = first.1.failures ∧ again.1.added = 0 ∧ again.2 = first.2 := by
  intro r s upward downward unknown
  have hs : Built s := Built.writes writeArtTerms _ .empty
  have hperm : [upward, downward, unknown].Perm [unknown, downward, upward] := by decide
  have hadded : ((r.importRows [upward, downward, unknown]).run s).1.added = 1 := by
    decide +kernel
  have hfailures : ((r.importRows [unknown, downward, upward]).run s).1.failures =
      [{ number := 3, problem := .unknownTerm "Art.Muse" }] := by decide +kernel
  have hresult := import_in_any_order_and_again .ordered r s hs _ _ hperm
  -- what follows is about the results of the runs, so they need not be run once more
  revert hadded hfailures hresult
  generalize (r.importRows [upward, downward, unknown]).run s = first
  generalize (r.importRows [unknown, downward, upward]).run s = other
  rintro hadded hfailures ⟨-, -, hlinks, -, hother, hagain⟩
  have hotherAdded : other.1.added = 1 := by rw [hother, hadded]
  show Built s ∧ _ ∧ _
  rw [hagain]
  exact ⟨hs, hperm, hlinks, hadded, hotherAdded, hfailures, rfl, rfl, rfl⟩

end Thesaurus
