import Mathlib.Algebra.BigOperators.Group.Finset.Basic
import Mathlib.Algebra.GroupWithZero.Nat
import Mathlib.Data.List.Nodup
import Mathlib.Data.List.Perm.Basic
import Thesaurus.Proofs.Store.Keys
import Thesaurus.Store.Basic

/-!
# Counting edges by type

A table is determined by what it holds, so a table of counts is determined by the
numbers alone: in which order a store lists its edges does not matter.

## Main results

* `Table.ext_get?`: tables that hold the same are equal.
* `get?_countTypes`: the count of a type, absent if there is no edge of it.
* `countTypes_perm`: counts do not depend on the order of the edges.
* `Table.get?_foldl_insert`: what is filed name by name.
* `Table.total_foldl_insert`, `sum_count_eq_length`: counts, summed up.
-/

namespace Thesaurus

namespace Table

variable {α : Type} {t t' : Table α}

theorem nodup_entries (t : Table α) : t.entries.Nodup :=
  List.Nodup.of_map Prod.fst t.nodup_keys

/-- The entries stand in the order of their keys, so nothing but what the table
holds makes a difference. -/
theorem ext_get? (h : ∀ key, t.get? key = t'.get? key) : t = t' := by
  have hperm : t.entries.Perm t'.entries := by
    refine (List.perm_ext_iff_of_nodup t.nodup_entries t'.nodup_entries).2 fun entry => ?_
    obtain ⟨key, a⟩ := entry
    rw [mem_entries_iff, mem_entries_iff, h]
  have hentries : t.entries = t'.entries := by
    refine hperm.eq_of_pairwise ?_ t.increasing t'.increasing
    intro a b _ _ hab hba
    exact absurd (String.lt_trans hab hba) (String.lt_irrefl _)
  cases t
  cases t'
  simp only [mk.injEq]
  exact hentries

end Table

/-- Counting on from a table adds the occurrences of each type to its count. -/
theorem get?_foldl_countTypes (edges : List Edge) (type : String) :
    ∀ counts : Table Nat,
      (edges.foldl (fun counts e => counts.insert e.type ((counts.get? e.type).getD 0 + 1))
        counts).get? type =
      if (edges.map (·.type)).count type = 0 then counts.get? type
      else some ((counts.get? type).getD 0 + (edges.map (·.type)).count type) := by
  induction edges with
  | nil => intro counts; simp
  | cons e rest ih =>
      intro counts
      rw [List.foldl_cons, ih, Table.get?_insert, List.map_cons, List.count_cons]
      by_cases htype : type = e.type
      · subst htype
        by_cases hrest : (rest.map (·.type)).count e.type = 0
        · simp [hrest]
        · simp only [if_neg hrest, if_pos, beq_self_eq_true, Option.getD_some]
          rw [if_neg (Nat.succ_ne_zero _), Nat.add_assoc, Nat.add_comm 1]
      · simp [htype, Ne.symm htype]

theorem get?_countTypes (edges : List Edge) (type : String) :
    (countTypes edges).get? type =
      if (edges.map (·.type)).count type = 0 then none
      else some ((edges.map (·.type)).count type) := by
  unfold countTypes
  rw [get?_foldl_countTypes]
  simp

theorem countTypes_perm {edges edges' : List Edge} (h : edges.Perm edges') :
    countTypes edges = countTypes edges' := by
  refine Table.ext_get? fun type => ?_
  rw [get?_countTypes, get?_countTypes, (h.map (·.type)).count_eq]

/-! ## Sums of counts -/

/-- An entry under a new key is one entry more, wherever its place is. -/
theorem insertEntry_perm {α : Type} {key : String} {a : α} (entries : List (String × α))
    (h : ∀ e ∈ entries, e.1 ≠ key) : (insertEntry key a entries).Perm ((key, a) :: entries) := by
  induction entries with
  | nil => exact List.Perm.refl _
  | cons head rest ih =>
      obtain ⟨k, b⟩ := head
      have hne : key ≠ k := (h (k, b) List.mem_cons_self).symm
      rw [insertEntry]
      by_cases hlt : key < k
      · rw [if_pos hlt]
      · rw [if_neg hlt, if_neg hne]
        exact ((ih fun e he => h e (List.mem_cons_of_mem _ he)).cons _).trans (List.Perm.swap _ _ _)

namespace Table

theorem total_insert {t : Table Nat} {key : String} (n : Nat) (h : t.get? key = none) :
    (t.insert key n).total = t.total + n := by
  have hnew : ∀ e ∈ t.entries, e.1 ≠ key := by
    rintro ⟨k, m⟩ he rfl
    rw [mem_entries_iff.1 he] at h
    cases h
  have hperm := (insertEntry_perm (a := n) t.entries hnew).map Prod.snd
  show ((insertEntry key n t.entries).map (·.2)).sum = (t.entries.map (·.2)).sum + n
  rw [hperm.sum_eq, List.map_cons, List.sum_cons, Nat.add_comm]

/-- What is filed under names one after the other is found under these names. -/
theorem get?_foldl_insert {α : Type} (f : String → α) (names : List String) (name : String) :
    ∀ t : Table α, (names.foldl (fun filed other => filed.insert other (f other)) t).get? name =
      if name ∈ names then some (f name) else t.get? name := by
  induction names with
  | nil => intro t; rfl
  | cons first rest ih =>
      intro t
      rw [List.foldl_cons, ih, get?_insert]
      by_cases hrest : name ∈ rest
      · rw [if_pos hrest, if_pos (List.mem_cons_of_mem _ hrest)]
      · rw [if_neg hrest]
        by_cases hfirst : name = first
        · rw [if_pos hfirst, if_pos (hfirst ▸ List.mem_cons_self), hfirst]
        · have hnot : name ∉ first :: rest := List.not_mem_cons_of_ne_of_not_mem hfirst hrest
          rw [if_neg hfirst, if_neg hnot]

/-- Numbers that are filed under different new names add up. -/
theorem total_foldl_insert (f : String → Nat) (names : List String) :
    ∀ t : Table Nat, names.Nodup → (∀ name ∈ names, t.get? name = none) →
      (names.foldl (fun counts name => counts.insert name (f name)) t).total =
        t.total + (names.map f).sum := by
  induction names with
  | nil => intro t _ _; rfl
  | cons name rest ih =>
      intro t hnodup hnew
      obtain ⟨hname, hrest⟩ := List.nodup_cons.1 hnodup
      have hnew' : ∀ other ∈ rest, (t.insert name (f name)).get? other = none := by
        intro other hother
        have hne : other ≠ name := fun h => hname (h ▸ hother)
        rw [get?_insert, if_neg hne]
        exact hnew other (List.mem_cons_of_mem _ hother)
      rw [List.foldl_cons, ih _ hrest hnew', total_insert _ (hnew name List.mem_cons_self),
        List.map_cons, List.sum_cons, Nat.add_assoc]

end Table

/-- Counted name by name, every type of a list is counted once if all are among the
names. -/
theorem sum_count_eq_length {names types : List String} (hnames : names.Nodup)
    (h : ∀ type ∈ types, type ∈ names) :
    (names.map fun name => types.count name).sum = types.length := by
  have hall : ∀ type ∈ (types : Multiset String), type ∈ names.toFinset := fun type htype =>
    List.mem_toFinset.2 (h type htype)
  have hsum := Multiset.sum_count_eq_card hall
  simp only [Multiset.coe_count, Multiset.coe_card] at hsum
  rw [← List.sum_toFinset _ hnames, hsum]

end Thesaurus
