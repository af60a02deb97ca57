import Thesaurus.Proofs.Store.View

/-!
# Hops and distances

How far a term lies from another, along stored edges that pass a filter and lead
to live terms. This is what the search for a neighbourhood is measured against,
and it does not mention the search.

## Main definitions

* `Hops`: a term is reached along so many edges.
* `IsDistance`: a term is reached along so many edges, and not along fewer.

## Main results

* `isDistance_succ_iff`: the terms one hop further are those that a hop leads to
  from the terms at a distance and that are not nearer.
-/

namespace Thesaurus

open Store

variable {σ : Type} [Store σ]

/-- An edge that a search may follow: it passes the filter and its target is live. -/
structure Followed (s : σ) (filter : TypeFilter) (e : Edge) : Prop where
  stored : e ∈ links s
  accepted : filter.accepts e.type = true
  live : (liveRecord s e.target).isSome = true

/-- A term is reached from the root along this many edges. -/
inductive Hops (s : σ) (filter : TypeFilter) (root : TermId) : Nat → TermId → Prop
  | root : Hops s filter root 0 root
  | hop {n : Nat} (e : Edge) (h : Hops s filter root n e.source) (he : Followed s filter e) :
      Hops s filter root (n + 1) e.target

/-- A term is reached along this many edges, and not along fewer. -/
structure IsDistance (s : σ) (filter : TypeFilter) (root : TermId) (n : Nat) (id : TermId) :
    Prop where
  hops : Hops s filter root n id
  least : ∀ m, Hops s filter root m id → n ≤ m

variable {s : σ} {filter : TypeFilter} {root id : TermId} {m n : Nat}

theorem Hops.live (h : Hops s filter root n id) (hroot : (liveRecord s root).isSome = true) :
    (liveRecord s id).isSome = true := by
  cases h with
  | root => exact hroot
  | hop e h he => exact he.live

theorem IsDistance.eq (h : IsDistance s filter root n id) (h' : IsDistance s filter root m id) :
    n = m := by
  have hle := h.least m h'.hops
  have hge := h'.least n h.hops
  omega

theorem isDistance_zero_iff : IsDistance s filter root 0 id ↔ id = root := by
  constructor
  · intro h
    cases h.hops with
    | root => rfl
  · rintro rfl
    exact ⟨.root, fun m _ => Nat.zero_le m⟩

/-- What can be reached has a distance. -/
theorem Hops.exists_isDistance (h : Hops s filter root n id) :
    ∃ m, m ≤ n ∧ IsDistance s filter root m id := by
  induction n using Nat.strong_induction_on with
  | _ n ih =>
      by_cases hshorter : ∃ k, k < n ∧ Hops s filter root k id
      · obtain ⟨k, hk, hhops⟩ := hshorter
        obtain ⟨m, hm, hdistance⟩ := ih k hk hhops
        exact ⟨m, by omega, hdistance⟩
      · refine ⟨n, Nat.le_refl n, h, fun m hm => ?_⟩
        by_contra hlt
        exact hshorter ⟨m, by omega, hm⟩

/-- The terms one hop further: a hop leads to them from the terms at the distance,
and they are not nearer than that. -/
theorem isDistance_succ_iff :
    IsDistance s filter root (n + 1) id ↔
      (∀ m, m ≤ n → ¬ IsDistance s filter root m id) ∧
        ∃ e, Followed s filter e ∧ IsDistance s filter root n e.source ∧ e.target = id := by
  constructor
  · intro h
    refine ⟨fun m hm hnear => ?_, ?_⟩
    · have := h.eq hnear
      omega
    · have hleast := h.least
      cases h.hops with
      | hop e hsource he =>
          obtain ⟨m, hm, hdistance⟩ := hsource.exists_isDistance
          have hle := hleast (m + 1) (.hop e hdistance.hops he)
          obtain rfl : m = n := by omega
          exact ⟨e, he, hdistance, rfl⟩
  · rintro ⟨hfar, e, he, hsource, rfl⟩
    refine ⟨.hop e hsource.hops he, fun m hm => ?_⟩
    by_contra hlt
    obtain ⟨k, hk, hdistance⟩ := hm.exists_isDistance
    exact hfar k (by omega) hdistance

end Thesaurus
