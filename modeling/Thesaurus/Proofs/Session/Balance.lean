import Mathlib.Algebra.BigOperators.Group.Finset.Basic
import Mathlib.Data.ZMod.Basic
import Thesaurus.Proofs.Session.Types

/-!
# Balanced counts

Where relations are whole, turning an edge round leads from the edges of a type to those
of the type it implies, and back again. So both types have equally many edges. The edges
of a type that implies itself are turned into each other, and none into itself because
no term is related to itself, so they come in twos.

A store counts all edges it lists, whatever their types are; what is reported is read from
these counts name by name. That both stores count what they list is known, so nothing here
depends on how they count.

## Main definitions

* `ofType`: the edges of a type.
* `BalancedCounts`: what the counts of a registry are like.

## Main results

* `Paired.card_ofType_eq`, `Paired.even_card_ofType`: edges of types that imply each other.
* `Registry.get?_counts`: the counts that are reported.
* `usage_balanced`: every session leaves balanced counts.
-/

namespace Thesaurus

open Store LawfulStore Message

/-! ## Edges turned round -/

/-- The edges of a type. -/
def ofType (edges : Finset Edge) (type : String) : Finset Edge :=
  edges.filter fun e => e.type = type

theorem mem_ofType {edges : Finset Edge} {type : String} {e : Edge} :
    e ∈ ofType edges type ↔ e ∈ edges ∧ e.type = type :=
  Finset.mem_filter

/-- The edge turned round, under a type of its own. -/
def Edge.reversed (e : Edge) (type : String) : Edge :=
  { source := e.target, target := e.source, type := type }

/-- An edge that is turned round twice is the same again, if it gets its type back. -/
theorem Edge.reversed_reversed {e : Edge} {type : String} (other : String) (h : e.type = type) :
    (e.reversed other).reversed type = e := by
  subst h
  rfl

namespace Paired

variable {r : Registry} {edges : Finset Edge} {type other : String}

theorem reversed_mem_ofType (h : Paired r edges) (himplied : r.implied? type = some other)
    {e : Edge} (he : e ∈ ofType edges type) : e.reversed other ∈ ofType edges other := by
  obtain ⟨hmem, rfl⟩ := mem_ofType.1 he
  have hinverse : e.inverse? r = some (e.reversed other) :=
    Edge.inverse?_eq_some_iff.2 ⟨himplied, rfl, rfl⟩
  exact mem_ofType.2 ⟨h.inverse e hmem _ hinverse, rfl⟩

/-- Types that imply each other have equally many edges. -/
theorem card_ofType_eq (h : Paired r edges) (himplied : r.implied? type = some other) :
    (ofType edges other).card = (ofType edges type).card := by
  refine Finset.card_nbij' (·.reversed type) (·.reversed other) ?_ ?_ ?_ ?_
  · exact fun e he => h.reversed_mem_ofType (Registry.implied?_symm himplied) he
  · exact fun e he => h.reversed_mem_ofType himplied he
  · exact fun e he => Edge.reversed_reversed type (mem_ofType.1 he).2
  · exact fun e he => Edge.reversed_reversed other (mem_ofType.1 he).2

/-- The edges of a type that implies itself come in twos. -/
theorem even_card_ofType (h : Paired r edges) (himplied : r.implied? type = some type) :
    Even (ofType edges type).card := by
  -- Modulo two, an edge and the edge turned round cancel each other.
  have hcancel : ∑ _e ∈ ofType edges type, (1 : ZMod 2) = 0 := by
    refine Finset.sum_involution (fun e _ => e.reversed type) ?_ ?_ ?_ ?_
    · exact fun e _ => by decide
    · intro e he _ hsame
      exact h.ends e (mem_ofType.1 he).1 (congrArg Edge.target hsame)
    · exact fun e he => h.reversed_mem_ofType himplied he
    · exact fun e he => Edge.reversed_reversed type (mem_ofType.1 he).2
  rw [Finset.sum_const, nsmul_one] at hcancel
  exact ZMod.natCast_eq_zero_iff_even.1 hcancel

end Paired

/-! ## Counts by name -/

/-- Where every edge is listed once, an edge of a type stands for an occurrence of it. -/
theorem count_type_eq_card {edges : List Edge} (h : edges.Nodup) (type : String) :
    (edges.map (·.type)).count type = (ofType edges.toFinset type).card := by
  have hfilter : ofType edges.toFinset type = (edges.filter fun e => e.type = type).toFinset := by
    ext e
    simp [mem_ofType]
  rw [hfilter, List.toFinset_card_of_nodup (h.filter _), List.count, List.countP_map,
    List.countP_eq_length_filter]
  congr 1

namespace Registry

variable {r : Registry}

/-- The number of edges of a registered type is reported under its name. -/
theorem get?_counts {edges : List Edge} (h : edges.Nodup) (name : String) :
    (r.counts edges).get? name =
      if name ∈ r.names then some (ofType edges.toFinset name).card else none := by
  unfold counts
  rw [Table.get?_foldl_insert, countOf_countTypes, count_type_eq_card h, Table.get?_empty]

theorem keys_counts_perm {edges : List Edge} (h : edges.Nodup) :
    (r.counts edges).keys.Perm r.names := by
  refine (List.perm_ext_iff_of_nodup (Table.nodup_keys _) r.nodup_names).2 fun name => ?_
  rw [Table.mem_keys_iff, Table.contains, get?_counts h]
  by_cases hname : name ∈ r.names
  · simp [hname]
  · simp [hname]

end Registry

/-! ## Balance -/

/-- Counts of the types of a registry that are balanced. -/
structure BalancedCounts (r : Registry) (edges : Finset Edge) (counts : Table Nat) : Prop where
  /-- The counts stand under the registered names and under no other. -/
  names : counts.keys.Perm r.names
  count : ∀ t ∈ r.types, counts.get? t.name = some (ofType edges t.name).card
  inverse : ∀ t ∈ r.types, ∀ inverse, t.inverse = some inverse →
    counts.get? inverse = counts.get? t.name
  even : ∀ t ∈ r.types, t.isSymmetric = true ∨ t.inverse = some t.name →
    ∃ n, counts.get? t.name = some n ∧ Even n

theorem Paired.balancedCounts {r : Registry} {edges : List Edge} (h : Paired r edges.toFinset)
    (hnodup : edges.Nodup) : BalancedCounts r edges.toFinset (r.counts edges) := by
  have hcount : ∀ name, r.contains name = true →
      (r.counts edges).get? name = some (ofType edges.toFinset name).card := by
    intro name hname
    rw [Registry.get?_counts hnodup, if_pos (Registry.contains_iff_mem_names.1 hname)]
  refine
    { names := Registry.keys_counts_perm hnodup
      count := ?_
      inverse := ?_
      even := ?_ }
  · intro t ht
    exact hcount t.name (Option.isSome_iff_exists.2 ⟨t, Registry.get?_of_mem ht⟩)
  · intro t ht inverse hinverse
    have himplied := Registry.implied?_of_inverse ht hinverse
    have hback := Registry.implied?_symm himplied
    rw [hcount inverse (Registry.contains_of_implied? hback),
      hcount t.name (Registry.contains_of_implied? himplied), h.card_ofType_eq himplied]
  · intro t ht hself
    have himplied := Registry.implied?_self ht hself
    exact ⟨_, hcount t.name (Registry.contains_of_implied? himplied), h.even_card_ofType himplied⟩

/-- However a session goes that begins without edges, under one registry, the counts that
are reported stand under the registered names, count the stored edges of each type, and
are balanced: a type has as many edges as its inverse, and an even number of them if it is
symmetric or its own inverse. -/
theorem usage_balanced (b : Backend) (e : Engine) (s : b.State) (hs : Built s)
    (hempty : links s = ∅) (actions : List Action) :
    let s' := runActions e actions s
    ∃ counts, e.relations.usage.run s' = (.ok counts, s') ∧
      BalancedCounts e.registry (links s') counts := by
  intro s'
  have hpairedStart : Paired e.registry (links s) := by
    rw [hempty]
    exact Paired.empty e.registry
  obtain ⟨hhealthy, hpaired⟩ :=
    paired_of_actions e actions s (Healthy.of_built hs hempty) hpairedStart
  obtain ⟨edges, -, husage, hlinks, hnodup⟩ := b.exists_edges hhealthy.sound
  refine ⟨e.registry.counts edges, e.relations.usage_run husage, ?_⟩
  rw [← hlinks] at hpaired ⊢
  exact hpaired.balancedCounts hnodup

/-- A registry of a type that is its own inverse and of two types that are each other's. -/
def mirroring : Registry where
  types := [
    { name := "mirrors", displayName := "Mirrors", inverse := some "mirrors", color := "#000000" },
    { name := "cites", displayName := "Cites", inverse := some "citedBy", color := "#000000" },
    { name := "citedBy", displayName := "Cited By", inverse := some "cites", color := "#000000" }]
  defaultName := "mirrors"
  accepted := by decide +kernel

/-- Both relations of two terms are counted on, also when one of the terms is deleted. -/
theorem mirrored_pair_balanced :
    let e : Engine := .ofSettings mirroring {}
    let actions := writeTwoTerms ++ [.request (.add ⟨"cubism"⟩ ⟨"painting"⟩ "mirrors"),
      .request (.add ⟨"painting"⟩ ⟨"cubism"⟩ "cites"), .edit (.deleteTerm ⟨"painting"⟩)]
    let s : Backend.State .ordered := EditableStore.empty
    let s' := runActions e actions s
    Built s ∧ links s = ∅ ∧ ∃ counts, e.relations.usage.run s' = (.ok counts, s') ∧
      BalancedCounts e.registry (links s') counts ∧ counts.get? "mirrors" = some 2 ∧
        counts.get? "cites" = some 1 ∧ counts.get? "citedBy" = some 1 := by
  intro e actions s s'
  obtain ⟨counts, hrun, hbalanced⟩ := usage_balanced .ordered e s .empty links_empty actions
  have hmirrors : (ofType (links s') "mirrors").card = 2 := by decide +kernel
  have hcites : (ofType (links s') "cites").card = 1 := by decide +kernel
  have hcounted : counts.get? "cites" = some 1 :=
    hcites ▸ hbalanced.count mirroring.types[1] (by decide +kernel)
  refine ⟨.empty, links_empty, counts, hrun, hbalanced, ?_, hcounted, ?_⟩
  · exact hmirrors ▸ hbalanced.count mirroring.types[0] (by decide +kernel)
  · exact (hbalanced.inverse mirroring.types[1] (by decide +kernel) "citedBy" rfl).trans hcounted

end Thesaurus
