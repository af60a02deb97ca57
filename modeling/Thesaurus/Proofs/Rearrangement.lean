import Mathlib.Data.List.FinRange
import Mathlib.Logic.Equiv.Defs

/-!
# Other orders of a list

A list is put into another order in which entries with the same key keep theirs.
Such orders are given by the place that each entry takes. What stands before an
entry in the two lists may differ, but not among the entries of its key.

## Main results

* `Rearrangement.filter_take_eq`: the entries of one key before an entry of that key.
* `Rearrangement.filter_eq`: all entries of one key.
-/

namespace Thesaurus

/-- Another order of a list, by the place that each entry takes: entries with the
same key keep their order. -/
structure Rearrangement {α κ : Type} (key : α → κ) (l l' : List α) where
  place : Fin l.length ≃ Fin l'.length
  same : ∀ i, l'.get (place i) = l.get i
  order : ∀ i j, key (l.get i) = key (l.get j) → i < j → place i < place j

variable {α κ : Type}

/-! ## Entries by their indices -/

/-- Lists of indices in increasing order are equal if they have the same members. -/
theorem eq_of_pairwise_lt {n : Nat} {is js : List (Fin n)} (his : is.Pairwise (· < ·))
    (hjs : js.Pairwise (· < ·)) (h : ∀ i, i ∈ is ↔ i ∈ js) : is = js := by
  have hnodup : is.Nodup := his.imp fun hlt => ne_of_lt hlt
  have hnodup' : js.Nodup := hjs.imp fun hlt => ne_of_lt hlt
  have hperm : is.Perm js := (List.perm_ext_iff_of_nodup hnodup hnodup').2 h
  exact hperm.eq_of_pairwise (fun i j _ _ hij hji => absurd hij (lt_asymm hji)) his hjs

theorem take_finRange (n m : Nat) :
    (List.finRange n).take m = (List.finRange n).filter (·.val < m) := by
  refine eq_of_pairwise_lt (List.pairwise_lt_finRange n).take
    ((List.pairwise_lt_finRange n).filter _) fun i => ?_
  simp only [List.mem_take_iff_getElem, List.mem_filter, List.mem_finRange, true_and,
    decide_eq_true_eq, List.length_finRange, List.getElem_finRange]
  constructor
  · rintro ⟨j, hj, rfl⟩
    simp only [Fin.val_cast]
    omega
  · intro hi
    exact ⟨i.val, by omega, Fin.ext (by simp)⟩

/-- The entries at the front that pass a test, by their indices. -/
theorem filter_take_eq_map (l : List α) (p : α → Bool) (n : Nat) :
    (l.take n).filter p =
      ((List.finRange l.length).filter fun i => p (l.get i) && decide (i.val < n)).map l.get := by
  have hl : l.take n = ((List.finRange l.length).filter (·.val < n)).map l.get := by
    rw [← take_finRange, List.map_take, List.map_get_finRange]
  rw [hl, List.filter_map, List.filter_filter]
  rfl

/-! ## What an order keeps -/

namespace Rearrangement

variable [DecidableEq κ] {key : α → κ} {l l' : List α}

omit [DecidableEq κ] in
/-- Among entries of one key, earlier means earlier in either order. -/
theorem place_lt_iff (h : Rearrangement key l l') {i j : Fin l.length}
    (hkey : key (l.get i) = key (l.get j)) : h.place i < h.place j ↔ i < j := by
  constructor
  · intro hlt
    rcases lt_trichotomy i j with hij | rfl | hji
    · exact hij
    · exact absurd hlt (lt_irrefl _)
    · exact absurd (h.order j i hkey.symm hji) (lt_asymm hlt)
  · exact h.order i j hkey

/-- Two fronts in which the same entries of a key stand hold these in the same
order. -/
theorem filter_take_eq_of_iff (h : Rearrangement key l l') (k : κ) {n n' : Nat}
    (hfront : ∀ i, key (l.get i) = k → ((h.place i).val < n' ↔ i.val < n)) :
    (l'.take n').filter (key · = k) = (l.take n).filter (key · = k) := by
  rw [filter_take_eq_map, filter_take_eq_map]
  -- the places of the entries in question increase with their indices, so both fronts
  -- list them alike
  have hindices : ((List.finRange l'.length).filter fun i =>
      decide (key (l'.get i) = k) && decide (i.val < n')) =
        ((List.finRange l.length).filter fun i =>
          decide (key (l.get i) = k) && decide (i.val < n)).map h.place := by
    refine eq_of_pairwise_lt ((List.pairwise_lt_finRange _).filter _) ?_ fun j => ?_
    · rw [List.pairwise_map]
      refine ((List.pairwise_lt_finRange _).filter _).imp_of_mem fun {i j} hi hj hlt => ?_
      simp only [List.mem_filter, Bool.and_eq_true, decide_eq_true_eq] at hi hj
      exact h.order i j (hi.2.1.trans hj.2.1.symm) hlt
    · obtain ⟨i, rfl⟩ := h.place.surjective j
      have hsame := h.same i
      simp only [List.mem_filter, List.mem_finRange, true_and, Bool.and_eq_true,
        decide_eq_true_eq, List.mem_map, EmbeddingLike.apply_eq_iff_eq, exists_eq_right, hsame]
      constructor
      · rintro ⟨hkey, hlt⟩
        exact ⟨hkey, (hfront i hkey).1 hlt⟩
      · rintro ⟨hkey, hlt⟩
        exact ⟨hkey, (hfront i hkey).2 hlt⟩
  rw [hindices, List.map_map]
  exact List.map_congr_left fun i _ => h.same i

/-- Before an entry, the entries of its key are the same in either order. -/
theorem filter_take_eq (h : Rearrangement key l l') (i : Fin l.length) :
    (l'.take (h.place i).val).filter (key · = key (l.get i)) =
      (l.take i.val).filter (key · = key (l.get i)) :=
  h.filter_take_eq_of_iff _ fun _ hkey => h.place_lt_iff hkey

/-- The entries of a key are the same in either order. -/
theorem filter_eq (h : Rearrangement key l l') (k : κ) :
    l'.filter (key · = k) = l.filter (key · = k) := by
  have hall : (l'.take l'.length).filter (key · = k) = (l.take l.length).filter (key · = k) :=
    h.filter_take_eq_of_iff k fun i _ => iff_of_true (h.place i).isLt i.isLt
  rwa [List.take_length, List.take_length] at hall

end Rearrangement

end Thesaurus
