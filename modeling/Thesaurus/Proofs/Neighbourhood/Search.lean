import Thesaurus.Neighbourhood
import Thesaurus.Proofs.Relations.Requests

/-!
# The search over a state

On a lawful store the search for a neighbourhood only looks, so it is a function
of the state. A level of the search is one pass over the edges that leave its
terms; what such a pass finds and keeps is said here without any depth in mind.

## Main definitions

* `Exploration.search`: the search as a function of the state.
* `Exploration.Discovers`: what a pass over some edges adds to a search.

## Main results

* `Relations.explore_run`: the search looks, and comes to that function.
* `Exploration.exists_discovers`: a pass without a cap.
-/

namespace Thesaurus

open Store LawfulStore

namespace Exploration

section Search

variable {σ : Type} [Store σ]

/-- The identities that have been found. -/
def ids (x : Exploration) : List TermId := x.found.map (·.1.id)

theorem knows_iff {x : Exploration} {id : TermId} : x.knows id = true ↔ id ∈ x.ids := by
  unfold knows ids
  rw [List.any_eq_true, List.mem_map]
  constructor
  · rintro ⟨p, hp, hid⟩
    exact ⟨p, hp, beq_iff_eq.1 hid⟩
  · rintro ⟨p, hp, hid⟩
    exact ⟨p, hp, beq_iff_eq.2 hid⟩

/-- Meets one edge that leaves a term of the given depth. -/
def follow (s : σ) (cap : Option Nat) (depth : Nat) (x : Exploration) (e : Edge) : Exploration :=
  if x.knows e.target then x.link e
  else if x.isFull cap then { x with truncated := true }
  else
    match liveRecord s e.target with
    | some t => (x.discover t (depth + 1)).link e
    | none => x

/-- Meets edges in their order. -/
def followAll (s : σ) (cap : Option Nat) (depth : Nat) (es : List Edge) (x : Exploration) :
    Exploration :=
  es.foldl (follow s cap depth) x

/-- The edges that leave the terms of a level. -/
def departures (s : σ) (filter : TypeFilter) (level : List TermId) : List Edge :=
  level.flatMap fun id => leaving s id filter

/-- Whether the target of an edge is live. -/
def leadsToLive (s : σ) (e : Edge) : Bool := (liveRecord s e.target).isSome

/-- The identities that a later stage has found beyond an earlier one. -/
def beyond (x next : Exploration) : List TermId :=
  (next.found.drop x.found.length).map (·.1.id)

/-- Expands level after level. -/
def search (s : σ) (filter : TypeFilter) (cap : Option Nat) :
    Nat → Nat → List TermId → Exploration → Exploration
  | 0, _, _, x => x
  | levels + 1, depth, level, x =>
    let next := x.followAll s cap depth (departures s filter level)
    search s filter cap levels (depth + 1) (x.beyond next) next

/-- From a level without terms the search goes nowhere. -/
theorem search_nil (s : σ) (filter : TypeFilter) (cap : Option Nat) (levels : Nat) :
    ∀ (depth : Nat) (x : Exploration), search s filter cap levels depth [] x = x := by
  induction levels with
  | zero => intro depth x; rfl
  | succ levels ih =>
      intro depth x
      have hnone : x.beyond x = [] := by
        unfold beyond
        rw [List.drop_length, List.map_nil]
      show search s filter cap levels (depth + 1) (x.beyond x) x = x
      rw [hnone, ih]

end Search

end Exploration

/-! ## The search runs as this function -/

namespace Relations

open Exploration

variable {σ : Type} [EditableStore σ] [LawfulStore σ] (r : Relations)

omit [LawfulStore σ] in
/-- Following an edge asks no more of a store than that it finds the live terms. -/
theorem followEdge_of_lookups {τ : Type} [Store τ] {u : τ} {s : σ}
    (h : ∀ id, (r.liveTerm? id).run u = (.ok (liveRecord s id), u)) (cap : Option Nat)
    (depth : Nat) (x : Exploration) (e : Edge) :
    (r.followEdge cap depth x e).run u = (.ok (x.follow s cap depth e), u) := by
  unfold followEdge follow
  by_cases hknown : x.knows e.target = true
  · rw [if_pos hknown, if_pos hknown]
    rfl
  · rw [if_neg hknown, if_neg hknown]
    by_cases hfull : x.isFull cap = true
    · rw [if_pos hfull, if_pos hfull]
      rfl
    · rw [if_neg hfull, if_neg hfull, run_bind_ok (h e.target)]
      cases liveRecord s e.target with
      | none => rfl
      | some t => rfl

theorem followEdge_run (s : σ) (cap : Option Nat) (depth : Nat) (x : Exploration) (e : Edge) :
    (r.followEdge cap depth x e).run s = (.ok (x.follow s cap depth e), s) :=
  r.followEdge_of_lookups (r.liveTerm?_run s) cap depth x e

theorem expandTerm_run (s : σ) (filter : TypeFilter) (cap : Option Nat) (depth : Nat)
    (x : Exploration) (id : TermId) :
    (r.expandTerm filter cap depth x id).run s =
      (.ok (x.followAll s cap depth (leaving s id filter)), s) := by
  unfold expandTerm
  rw [run_bind_ok (r.call_run (edgesFrom_run s id filter))]
  exact run_foldlM_ok _ (fun y e _ => r.followEdge_run s cap depth y e) x

theorem expandLevel_run (s : σ) (filter : TypeFilter) (cap : Option Nat) (depth : Nat)
    (level : List TermId) (x : Exploration) :
    (level.foldlM (r.expandTerm filter cap depth) x).run s =
      (.ok (x.followAll s cap depth (departures s filter level)), s) := by
  have hrun := run_foldlM_ok level (fun y id _ => r.expandTerm_run s filter cap depth y id) x
  rw [hrun]
  unfold followAll departures
  rw [List.foldl_flatMap]

theorem explore_run (s : σ) (filter : TypeFilter) (cap : Option Nat) (levels : Nat) :
    ∀ (depth : Nat) (level : List TermId) (x : Exploration),
      (r.explore filter cap levels depth level x).run s =
        (.ok (search s filter cap levels depth level x), s) := by
  induction levels with
  | zero => intro depth level x; rfl
  | succ levels ih =>
      intro depth level x
      unfold explore
      cases level with
      | nil => rw [search_nil]; rfl
      | cons id rest =>
          have hsome : ¬ (id :: rest).isEmpty = true := by simp
          rw [if_neg hsome, run_bind_ok (r.expandLevel_run s filter cap depth _ x)]
          exact ih (depth + 1) _ _

end Relations

/-! ## What a pass finds -/

namespace Exploration

variable {σ : Type} [EditableStore σ]

/-- What a pass over edges adds to a search: the live targets that were not found
before, each once, and the edges to live targets. -/
structure Discovers (s : σ) (depth : Nat) (es : List Edge) (x next : Exploration)
    (new : List (Term × Nat)) : Prop where
  found_eq : next.found = x.found ++ new
  links_eq : next.links = x.links ++ es.filter (leadsToLive s)
  nodup : (new.map (·.1.id)).Nodup
  records : ∀ p ∈ new, p.2 = depth + 1 ∧ liveRecord s p.1.id = some p.1
  mem_new : ∀ id, id ∈ new.map (·.1.id) ↔
    id ∉ x.ids ∧ ∃ e ∈ es, e.target = id ∧ (liveRecord s id).isSome = true

namespace Discovers

variable {s : σ} {depth : Nat} {es : List Edge} {e : Edge} {x next : Exploration}
  {new : List (Term × Nat)}

theorem mem_ids (h : Discovers s depth es x next new) {id : TermId} :
    id ∈ next.ids ↔ id ∈ x.ids ∨ id ∈ new.map (·.1.id) := by
  unfold ids
  rw [h.found_eq, List.map_append, List.mem_append]

theorem live_of_mem_ids (h : Discovers s depth es x next new)
    (hx : ∀ id ∈ x.ids, (liveRecord s id).isSome = true) :
    ∀ id ∈ next.ids, (liveRecord s id).isSome = true := by
  intro id hid
  rcases h.mem_ids.1 hid with hid | hid
  · exact hx id hid
  · obtain ⟨-, e, -, -, hlive⟩ := (h.mem_new id).1 hid
    exact hlive

/-- Another edge to a term that was found is kept. -/
theorem link (h : Discovers s depth es x next new) (hknown : e.target ∈ next.ids)
    (hlive : leadsToLive s e = true) :
    Discovers s depth (es ++ [e]) x (next.link e) new where
  found_eq := h.found_eq
  links_eq := by
    show next.links ++ [e] = _
    rw [h.links_eq, List.filter_append, List.filter_cons_of_pos hlive, List.filter_nil,
      List.append_assoc]
  nodup := h.nodup
  records := h.records
  mem_new id := by
    rw [h.mem_new]
    constructor
    · rintro ⟨hid, f, hf, hrest⟩
      exact ⟨hid, f, List.mem_append_left _ hf, hrest⟩
    · rintro ⟨hid, f, hf, htarget, hlive'⟩
      rcases List.mem_append.1 hf with hf | hf
      · exact ⟨hid, f, hf, htarget, hlive'⟩
      · obtain rfl := List.mem_singleton.1 hf
        have hnew : id ∈ new.map (·.1.id) := by
          rw [htarget] at hknown
          exact (h.mem_ids.1 hknown).resolve_left hid
        exact (h.mem_new id).1 hnew

/-- An edge to a live term that was not found yet is kept, and the term found. -/
theorem discover {t : Term} (h : Discovers s depth es x next new) (hnew : e.target ∉ next.ids)
    (ht : liveRecord s e.target = some t) (hid : t.id = e.target) :
    Discovers s depth (es ++ [e]) x ((next.discover t (depth + 1)).link e)
      (new ++ [(t, depth + 1)]) where
  found_eq := by
    show next.found ++ [(t, depth + 1)] = _
    rw [h.found_eq, List.append_assoc]
  links_eq := by
    have hlive : leadsToLive s e = true := by unfold leadsToLive; rw [ht]; rfl
    show next.links ++ [e] = _
    rw [h.links_eq, List.filter_append, List.filter_cons_of_pos hlive, List.filter_nil,
      List.append_assoc]
  nodup := by
    rw [List.map_append, List.map_singleton, List.nodup_append]
    refine ⟨h.nodup, List.nodup_singleton _, ?_⟩
    intro id hidnew id' hid'
    rw [List.mem_singleton.1 hid', hid]
    rintro rfl
    exact hnew (h.mem_ids.2 (.inr hidnew))
  records p hp := by
    rcases List.mem_append.1 hp with hp | hp
    · exact h.records p hp
    · rw [List.mem_singleton.1 hp]
      exact ⟨rfl, by rw [hid, ht]⟩
  mem_new id := by
    rw [List.map_append, List.mem_append, List.map_singleton, List.mem_singleton, h.mem_new, hid]
    constructor
    · rintro (⟨hid, f, hf, hrest⟩ | rfl)
      · exact ⟨hid, f, List.mem_append_left _ hf, hrest⟩
      · refine ⟨fun hx => hnew (h.mem_ids.2 (.inl hx)), e, ?_, rfl, by rw [ht]; rfl⟩
        exact List.mem_append_right _ (List.mem_singleton_self e)
    · rintro ⟨hid, f, hf, htarget, hlive⟩
      rcases List.mem_append.1 hf with hf | hf
      · exact .inl ⟨hid, f, hf, htarget, hlive⟩
      · rw [List.mem_singleton.1 hf] at htarget
        exact .inr htarget.symm

/-- An edge to a term that is gone is passed over. -/
theorem skip (h : Discovers s depth es x next new) (hgone : liveRecord s e.target = none) :
    Discovers s depth (es ++ [e]) x next new where
  found_eq := h.found_eq
  links_eq := by
    have hdead : ¬ leadsToLive s e = true := by unfold leadsToLive; rw [hgone]; simp
    rw [h.links_eq, List.filter_append, List.filter_cons_of_neg hdead, List.filter_nil,
      List.append_nil]
  nodup := h.nodup
  records := h.records
  mem_new id := by
    rw [h.mem_new]
    constructor
    · rintro ⟨hid, f, hf, hrest⟩
      exact ⟨hid, f, List.mem_append_left _ hf, hrest⟩
    · rintro ⟨hid, f, hf, htarget, hlive⟩
      rcases List.mem_append.1 hf with hf | hf
      · exact ⟨hid, f, hf, htarget, hlive⟩
      · rw [List.mem_singleton.1 hf] at htarget
        rw [← htarget, hgone] at hlive
        cases hlive

end Discovers

/-- A pass without a cap, by induction on the edges, the last one first. -/
theorem exists_discovers [LawfulStore σ] {s : σ} (hs : Sound s) (depth : Nat) (es : List Edge)
    (x : Exploration) (hx : ∀ id ∈ x.ids, (liveRecord s id).isSome = true) :
    ∃ new, Discovers s depth es x (x.followAll s none depth es) new := by
  induction es using List.reverseRecOn with
  | nil =>
      refine ⟨[], ?_, ?_, List.nodup_nil, ?_, ?_⟩
      · rw [List.append_nil]; rfl
      · rw [List.filter_nil, List.append_nil]; rfl
      · intro p hp; cases hp
      · intro id; simp
  | append_singleton es e ih =>
      obtain ⟨new, h⟩ := ih
      have hpass : x.followAll s none depth (es ++ [e]) =
          (x.followAll s none depth es).follow s none depth e := by
        unfold followAll
        rw [List.foldl_append, List.foldl_cons, List.foldl_nil]
      rw [hpass]
      generalize x.followAll s none depth es = next at h
      unfold follow
      by_cases hknown : next.knows e.target = true
      · rw [if_pos hknown]
        have hids := knows_iff.1 hknown
        exact ⟨new, h.link hids (h.live_of_mem_ids hx _ hids)⟩
      · rw [if_neg hknown]
        have hids : e.target ∉ next.ids := fun hids => hknown (knows_iff.2 hids)
        have hroom : ¬ next.isFull none = true := by simp [isFull]
        rw [if_neg hroom]
        cases ht : liveRecord s e.target with
        | none => exact ⟨new, h.skip ht⟩
        | some t => exact ⟨_, h.discover hids ht (id_of_liveRecord hs ht)⟩

end Exploration

end Thesaurus
