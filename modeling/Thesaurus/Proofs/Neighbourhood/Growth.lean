import Thesaurus.Proofs.Neighbourhood.Exact

/-!
# How a search grows

An edge that a search meets is kept, counts as cut off, is passed over, or leads to
a new term; with a cap or without, nothing that was found is given up. Terms are
found in the order of their depths, and a search with one level more goes on where
the other one stops. So a neighbourhood is a beginning of every deeper one.

## Main definitions

* `Exploration.Meets`: the four outcomes of meeting an edge.
* `Exploration.Extends`: one stage of a search goes on from another.
* `Exploration.Frontier`: the terms found, apart from those to be expanded next.
* `Relations.RefusesFilter`: requests with an unregistered type in the filter.

## Main results

* `Exploration.search_succ_extends`: one level more.
* `neighbourhood_prefix_of_deeper`: a neighbourhood and the next deeper one.
-/

namespace Thesaurus

open Store LawfulStore

namespace Exploration

variable {σ : Type} [Store σ]

/-! ## One edge -/

/-- What meeting an edge that leaves a term of the given depth comes to. -/
inductive Meets (s : σ) (cap : Option Nat) (depth : Nat) (x : Exploration) (e : Edge) :
    Exploration → Prop
  | known (htarget : e.target ∈ x.ids) : Meets s cap depth x e (x.link e)
  | cutOff (htarget : e.target ∉ x.ids) (hfull : x.isFull cap = true) :
      Meets s cap depth x e { x with truncated := true }
  | gone (htarget : e.target ∉ x.ids) (hroom : x.isFull cap = false)
      (hgone : liveRecord s e.target = none) : Meets s cap depth x e x
  | new {t : Term} (htarget : e.target ∉ x.ids) (hroom : x.isFull cap = false)
      (ht : liveRecord s e.target = some t) :
      Meets s cap depth x e ((x.discover t (depth + 1)).link e)

variable {s : σ} {cap : Option Nat} {depth : Nat} {e : Edge} {x y next : Exploration}

theorem meets_follow (s : σ) (cap : Option Nat) (depth : Nat) (x : Exploration) (e : Edge) :
    Meets s cap depth x e (x.follow s cap depth e) := by
  unfold follow
  by_cases hknown : x.knows e.target = true
  · rw [if_pos hknown]
    exact .known (knows_iff.1 hknown)
  · rw [if_neg hknown]
    have htarget : e.target ∉ x.ids := fun hid => hknown (knows_iff.2 hid)
    cases hfull : x.isFull cap with
    | true => exact .cutOff htarget hfull
    | false =>
        cases ht : liveRecord s e.target with
        | none => exact .gone htarget hfull ht
        | some t => exact .new htarget hfull ht

theorem Meets.links_eq (h : Meets s cap depth x e next) :
    next.links = x.links ∨ next.links = x.links ++ [e] := by
  cases h with
  | known _ => exact .inr rfl
  | cutOff _ _ => exact .inl rfl
  | gone _ _ _ => exact .inl rfl
  | new _ _ _ => exact .inr rfl

theorem Meets.length_found_le (h : Meets s cap depth x e next) :
    next.found.length ≤ x.found.length + 1 := by
  cases h with
  | known _ => exact Nat.le_succ _
  | cutOff _ _ => exact Nat.le_succ _
  | gone _ _ _ => exact Nat.le_succ _
  | new _ _ _ => exact Nat.le_of_eq List.length_append

/-! ## Nothing is given up -/

/-- A stage of a search that goes on from an earlier one. -/
structure Extends (x next : Exploration) : Prop where
  found : x.found <+: next.found
  links : x.links <+: next.links
  truncated : x.truncated = true → next.truncated = true

namespace Extends

theorem refl (x : Exploration) : Extends x x := ⟨List.prefix_rfl, List.prefix_rfl, id⟩

theorem trans (h : Extends x y) (h' : Extends y next) : Extends x next where
  found := h.found.trans h'.found
  links := h.links.trans h'.links
  truncated htruncated := h'.truncated (h.truncated htruncated)

/-- What is not among the first terms found stays so. -/
theorem mem_drop (h : Extends x next) {n : Nat} {p : Term × Nat} (hp : p ∈ x.found.drop n) :
    p ∈ next.found.drop n := by
  obtain ⟨new, hnew⟩ := h.found
  rw [← hnew, List.drop_append]
  exact List.mem_append_left _ hp

end Extends

theorem Meets.extends (h : Meets s cap depth x e next) : Extends x next := by
  cases h with
  | known _ => exact ⟨List.prefix_rfl, List.prefix_append _ _, id⟩
  | cutOff _ _ => exact ⟨List.prefix_rfl, List.prefix_rfl, fun _ => rfl⟩
  | gone _ _ _ => exact .refl x
  | new _ _ _ => exact ⟨List.prefix_append _ _, List.prefix_append _ _, id⟩

theorem followAll_extends (s : σ) (cap : Option Nat) (depth : Nat) (es : List Edge)
    (x : Exploration) : Extends x (x.followAll s cap depth es) := by
  refine List.foldlRecOn es (follow s cap depth) (Extends.refl x) ?_
  intro y h e _
  exact h.trans (meets_follow s cap depth y e).extends

theorem search_succ (s : σ) (filter : TypeFilter) (cap : Option Nat) (levels depth : Nat)
    (level : List TermId) (x : Exploration) :
    search s filter cap (levels + 1) depth level x =
      search s filter cap levels (depth + 1)
        (x.beyond (x.followAll s cap depth (departures s filter level)))
        (x.followAll s cap depth (departures s filter level)) :=
  rfl

theorem search_extends (s : σ) (filter : TypeFilter) (cap : Option Nat) (levels : Nat) :
    ∀ (depth : Nat) (level : List TermId) (x : Exploration),
      Extends x (search s filter cap levels depth level x) := by
  induction levels with
  | zero => intro depth level x; exact .refl x
  | succ levels ih =>
      intro depth level x
      exact (followAll_extends s cap depth _ x).trans (ih (depth + 1) _ _)

/-- A search with one level more goes on where the other one stops: both take the
same levels until then. -/
theorem search_succ_extends (s : σ) (filter : TypeFilter) (cap : Option Nat) (levels : Nat) :
    ∀ (depth : Nat) (level : List TermId) (x : Exploration),
      Extends (search s filter cap levels depth level x)
        (search s filter cap (levels + 1) depth level x) := by
  induction levels with
  | zero => intro depth level x; exact search_extends s filter cap 1 depth level x
  | succ levels ih => intro depth level x; exact ih (depth + 1) _ _

/-! ## What is expanded next -/

/-- The terms found fall into earlier ones and the latest, which are all at the depth
that is to be expanded next. -/
structure Frontier (depth : Nat) (earlier latest : List (Term × Nat)) (x : Exploration) :
    Prop where
  found_eq : x.found = earlier ++ latest
  earlier_lt : ∀ p ∈ earlier, p.2 < depth
  latest_eq : ∀ p ∈ latest, p.2 = depth

theorem Meets.exists_new (h : Meets s cap depth x e next) :
    ∃ new, next.found = x.found ++ new ∧ ∀ p ∈ new, p.2 = depth + 1 := by
  cases h with
  | known _ => exact ⟨[], (List.append_nil _).symm, by simp⟩
  | cutOff _ _ => exact ⟨[], (List.append_nil _).symm, by simp⟩
  | gone _ _ _ => exact ⟨[], (List.append_nil _).symm, by simp⟩
  | @new t _ _ _ => exact ⟨[(t, depth + 1)], rfl, by simp⟩

theorem exists_new_followAll (s : σ) (cap : Option Nat) (depth : Nat) (es : List Edge)
    (x : Exploration) :
    ∃ new, (x.followAll s cap depth es).found = x.found ++ new ∧ ∀ p ∈ new, p.2 = depth + 1 := by
  refine List.foldlRecOn es (follow s cap depth)
    (motive := fun y => ∃ new, y.found = x.found ++ new ∧ ∀ p ∈ new, p.2 = depth + 1)
    ⟨[], (List.append_nil _).symm, by simp⟩ ?_
  rintro y ⟨old, hold, holdDepth⟩ e _
  obtain ⟨new, hnew, hnewDepth⟩ := (meets_follow s cap depth y e).exists_new
  refine ⟨old ++ new, by rw [hnew, hold, List.append_assoc], fun p hp => ?_⟩
  rcases List.mem_append.1 hp with hp | hp
  · exact holdDepth p hp
  · exact hnewDepth p hp

namespace Frontier

variable {earlier latest : List (Term × Nat)}

theorem initial (t : Term) : Frontier 0 [] [(t, 0)] { found := [(t, 0)] } where
  found_eq := rfl
  earlier_lt p hp := by cases hp
  latest_eq p hp := by rw [List.mem_singleton.1 hp]

theorem of_mem_latest (h : Frontier depth earlier latest x) :
    ∀ p ∈ latest, p ∈ x.found ∧ p.2 = depth := by
  intro p hp
  rw [h.found_eq]
  exact ⟨List.mem_append_right _ hp, h.latest_eq p hp⟩

theorem le_of_mem_found (h : Frontier depth earlier latest x) : ∀ p ∈ x.found, p.2 ≤ depth := by
  intro p hp
  rw [h.found_eq] at hp
  rcases List.mem_append.1 hp with hp | hp
  · exact Nat.le_of_lt (h.earlier_lt p hp)
  · exact Nat.le_of_eq (h.latest_eq p hp)

/-- After a pass the terms that it has found are the latest. -/
theorem pass (h : Frontier depth earlier latest x) (s : σ) (cap : Option Nat) (es : List Edge) :
    ∃ new, Frontier (depth + 1) x.found new (x.followAll s cap depth es) ∧
      x.beyond (x.followAll s cap depth es) = new.map (·.1.id) := by
  obtain ⟨new, hnew, hdepth⟩ := exists_new_followAll s cap depth es x
  refine ⟨new, ⟨hnew, fun p hp => ?_, hdepth⟩, ?_⟩
  · exact Nat.lt_succ_of_le (h.le_of_mem_found p hp)
  · unfold beyond
    rw [hnew, List.drop_left]

/-- After all levels the latest terms are those at the last depth. -/
theorem search (s : σ) (filter : TypeFilter) (cap : Option Nat) (levels : Nat) :
    ∀ (depth : Nat) (earlier latest : List (Term × Nat)) (x : Exploration),
      Frontier depth earlier latest x → ∃ nearer last, Frontier (depth + levels) nearer last
        (Exploration.search s filter cap levels depth (latest.map (·.1.id)) x) := by
  induction levels with
  | zero => intro depth earlier latest x h; exact ⟨earlier, latest, h⟩
  | succ levels ih =>
      intro depth earlier latest x h
      obtain ⟨new, hnext, hbeyond⟩ := h.pass s cap (departures s filter (latest.map (·.1.id)))
      obtain ⟨nearer, last, hlast⟩ := ih (depth + 1) x.found new _ hnext
      rw [search_succ, hbeyond]
      have hdepth : depth + 1 + levels = depth + (levels + 1) := by omega
      exact ⟨nearer, last, hdepth ▸ hlast⟩

/-- The earlier terms are those that are nearer than the latest. -/
theorem filter_found (h : Frontier depth earlier latest x) :
    x.found.filter (fun p => decide (p.2 < depth)) = earlier := by
  have hearlier : earlier.filter (fun p => decide (p.2 < depth)) = earlier :=
    List.filter_eq_self.2 fun p hp => decide_eq_true (h.earlier_lt p hp)
  have hlatest : latest.filter (fun p => decide (p.2 < depth)) = [] := by
    refine List.filter_eq_nil_iff.2 fun p hp => ?_
    rw [decide_eq_true_eq, h.latest_eq p hp]
    exact Nat.lt_irrefl depth
  rw [h.found_eq, List.filter_append, hearlier, hlatest, List.append_nil]

end Frontier

end Exploration

/-! ## What requests come to -/

/-- A filter that names an unregistered type is refused because of it, for every
depth and cap. -/
def Relations.RefusesFilter {σ : Type} [Store σ] (r : Relations) (s : σ) (root : TermId)
    (filter : TypeFilter) : Prop :=
  ∃ unknown ∈ filter, r.registry.contains unknown = false ∧ ∀ maxDepth cap,
    (r.neighbourhood root maxDepth filter cap).run s = (.error (.invalidType unknown), s)

/-- A request for the neighbourhood of a live term is refused because of its filter,
or answered with what the search comes to. -/
theorem Relations.neighbourhood_cases {σ : Type} [EditableStore σ] [LawfulStore σ]
    (r : Relations) (s : σ) {root : TermId} {t : Term} (filter : TypeFilter)
    (ht : liveRecord s root = some t) :
    r.RefusesFilter s root filter ∨ (∀ type ∈ filter, isTypeName type = true) ∧
      ∀ maxDepth cap, (r.neighbourhood root maxDepth filter cap).run s =
        (.ok ((Exploration.search s filter cap maxDepth 0 [root] { found := [(t, 0)] }).drawn r
          root maxDepth), s) := by
  cases hunknown : filter.find? (fun type => !r.registry.contains type) with
  | some unknown =>
      refine .inl ⟨unknown, List.mem_of_find?_eq_some hunknown, ?_, fun maxDepth cap =>
        r.neighbourhood_of_unknown s root maxDepth cap hunknown⟩
      have hnot := List.find?_some hunknown
      rwa [Bool.not_eq_true'] at hnot
  | none =>
      have hfilter := Registry.find?_not_contains_eq_none_iff.1 hunknown
      exact .inr ⟨fun type htype => Registry.isTypeName_of_contains (hfilter type htype),
        fun maxDepth cap => r.neighbourhood_run s maxDepth cap ht hfilter⟩

/-- A filter of registered types is not refused. -/
theorem Relations.not_refusesFilter {σ : Type} [Store σ] {r : Relations} {s : σ} {root : TermId}
    {filter : TypeFilter} (h : ∀ type ∈ filter, r.registry.contains type = true) :
    ¬ r.RefusesFilter s root filter := by
  rintro ⟨unknown, hmem, hunknown, -⟩
  rw [h unknown hmem] at hunknown
  cases hunknown

/-- A term of a neighbourhood apart from its flag, which depends on the edges. -/
def Neighbour.unflagged (node : Neighbour) : Neighbour := { node with isolated := false }

namespace Exploration

variable {x next : Exploration} (r : Relations) (root : TermId) (maxDepth : Nat)

theorem ids_drawn : (x.drawn r root maxDepth).nodes.map (·.id) = x.ids := List.map_map

theorem edges_drawn : (x.drawn r root maxDepth).edges.map (·.edge) = x.links := by
  refine List.map_map.trans ((List.map_congr_left fun e _ => ?_).trans (List.map_id _))
  exact e.edge_drawn r.registry

theorem unflagged_drawn :
    (x.drawn r root maxDepth).nodes.map Neighbour.unflagged =
      x.found.map fun (t, depth) =>
        { id := t.id, label := t.label, fullName := t.fullName, depth := depth
          isolated := false } :=
  List.map_map

end Exploration

/-- Unless the filter is refused, the neighbourhood of a live term is a beginning of the
one that is a hop deeper: the terms, apart from their flags, and the edges come first
there in the same order, and if the cap cuts the one short, so it does the other. -/
theorem neighbourhood_prefix_of_deeper (b : Backend) (s : b.State) (r : Relations)
    (root : TermId) (maxDepth : Nat) (filter : TypeFilter) (cap : Option Nat)
    (hroot : (liveRecord s root).isSome = true) :
    r.RefusesFilter s root filter ∨
      ∃ g deeper, (r.neighbourhood root maxDepth filter cap).run s = (.ok g, s) ∧
        (r.neighbourhood root (maxDepth + 1) filter cap).run s = (.ok deeper, s) ∧
        g.nodes.map Neighbour.unflagged <+: deeper.nodes.map Neighbour.unflagged ∧
        g.edges <+: deeper.edges ∧
        (g.truncated = true → deeper.truncated = true) := by
  obtain ⟨t, ht⟩ := Option.isSome_iff_exists.1 hroot
  refine (r.neighbourhood_cases s filter ht).imp id ?_
  rintro ⟨-, hrun⟩
  have hextends := Exploration.search_succ_extends s filter cap maxDepth 0 [root]
    { found := [(t, 0)] }
  refine ⟨_, _, hrun maxDepth cap, hrun (maxDepth + 1) cap, ?_, ?_, hextends.truncated⟩
  · rw [Exploration.unflagged_drawn, Exploration.unflagged_drawn]
    exact hextends.found.map _
  · exact hextends.links.map _

/-- A store in which cubism has a broader term, and a related one that is deleted. -/
def cubismSurroundings (b : Backend) : b.State :=
  let art : Glossary := { id := ⟨"art"⟩, name := "Art" }
  let writes : List Write :=
    [.edit (.putTerm (.topLevel ⟨"cubism"⟩ art "Cubism")),
      .edit (.putTerm (.topLevel ⟨"painting"⟩ art "Painting")),
      .edit (.putTerm (.topLevel ⟨"realism"⟩ art "Realism")),
      .addEdge { source := ⟨"cubism"⟩, target := ⟨"painting"⟩, type := "broader" },
      .addEdge { source := ⟨"cubism"⟩, target := ⟨"realism"⟩, type := "seeAlso" },
      .edit (.deleteTerm ⟨"realism"⟩)]
  writes.foldl (fun s w => w.run s) EditableStore.empty

theorem built_cubismSurroundings (b : Backend) : Built (cubismSurroundings b) :=
  .writes _ _ .empty

/-- The edge from cubism to its broader term. -/
def cubismToPainting : Edge := ⟨⟨"cubism"⟩, ⟨"painting"⟩, "broader"⟩

/-- The terms of a neighbourhood with their depths, its edges, and whether it was cut short. -/
def Neighbourhood.outline (g : Neighbourhood) : List (TermId × Nat) × List Edge × Bool :=
  (g.nodes.map fun node => (node.id, node.depth), g.edges.map (·.edge), g.truncated)

theorem Neighbourhood.outline_of_run {σ : Type} {act : RelationM σ Neighbourhood} {s s' : σ}
    {g : Neighbourhood} {outline : List (TermId × Nat) × List Edge × Bool}
    (hrun : act.run s = (.ok g, s')) (h : (act.run s).1.map Neighbourhood.outline = .ok outline) :
    g.outline = outline := by
  rw [hrun] at h
  exact Except.ok.inj h

/-- Cubism alone comes first in the neighbourhood of depth one, painting second. -/
theorem cubism_prefix_of_surroundings :
    let s := cubismSurroundings .ordered
    let r : Relations := { registry := .builtin }
    (liveRecord s ⟨"cubism"⟩).isSome = true ∧
      ∃ g deeper, (r.neighbourhood ⟨"cubism"⟩ 0 ["broader"] (some 5)).run s = (.ok g, s) ∧
        (r.neighbourhood ⟨"cubism"⟩ 1 ["broader"] (some 5)).run s = (.ok deeper, s) ∧
        g.nodes.map Neighbour.unflagged <+: deeper.nodes.map Neighbour.unflagged ∧
        g.edges <+: deeper.edges ∧
        (g.truncated = true → deeper.truncated = true) ∧
        g.outline = ([(⟨"cubism"⟩, 0)], [], false) ∧
        deeper.outline =
          ([(⟨"cubism"⟩, 0), (⟨"painting"⟩, 1)], [cubismToPainting], false) := by
  intro s r
  have hroot : (liveRecord s ⟨"cubism"⟩).isSome = true := by decide +kernel
  have hfilter : ∀ type ∈ ["broader"], r.registry.contains type = true := by decide +kernel
  obtain ⟨g, deeper, hrun, hdeeper, hnodes, hedges, htruncated⟩ :=
    (neighbourhood_prefix_of_deeper .ordered s r ⟨"cubism"⟩ 0 ["broader"] (some 5)
      hroot).resolve_left (Relations.not_refusesFilter hfilter)
  refine ⟨hroot, g, deeper, hrun, hdeeper, hnodes, hedges, htruncated, ?_, ?_⟩
  · exact Neighbourhood.outline_of_run hrun (by decide +kernel)
  · exact Neighbourhood.outline_of_run hdeeper (by decide +kernel)

end Thesaurus
