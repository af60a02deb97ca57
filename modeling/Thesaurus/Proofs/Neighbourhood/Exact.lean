import Thesaurus.Proofs.Neighbourhood.Hops
import Thesaurus.Proofs.Neighbourhood.Search
import Thesaurus.Proofs.Store.Backend

/-!
# What a neighbourhood consists of

After so many levels, a search without a cap has found exactly the terms whose
distance from the root is no larger, and has kept exactly the edges that leave
terms at smaller distances. One level is one pass over the edges that leave the
terms of the last distance, so each level follows from the one before.

## Main definitions

* `Level`: where a search stands after so many levels.

## Main results

* `Level.step`, `Level.search`: one level, and all of them.
* `neighbourhood_exact`: the terms and edges of a neighbourhood.
-/

namespace Thesaurus

open Store LawfulStore Exploration

variable {σ : Type} [EditableStore σ]

/-- A search that has found what lies within this depth, and is about to expand
the terms at it. -/
structure Level (s : σ) (filter : TypeFilter) (root : TermId) (depth : Nat)
    (level : List TermId) (x : Exploration) : Prop where
  first : x.ids.head? = some root
  nodup : x.ids.Nodup
  sorted : (x.found.map (·.2)).Pairwise (· ≤ ·)
  records : ∀ p ∈ x.found, liveRecord s p.1.id = some p.1
  distance : ∀ p ∈ x.found, p.2 ≤ depth ∧ IsDistance s filter root p.2 p.1.id
  complete : ∀ n id, n ≤ depth → IsDistance s filter root n id → id ∈ x.ids
  nodup_level : level.Nodup
  mem_level : ∀ id, id ∈ level ↔ IsDistance s filter root depth id
  nodup_links : x.links.Nodup
  mem_links : ∀ e, e ∈ x.links ↔
    Followed s filter e ∧ ∃ n, n < depth ∧ IsDistance s filter root n e.source

namespace Level

variable {s : σ} {filter : TypeFilter} {root : TermId} {depth : Nat} {level : List TermId}
  {x : Exploration}

theorem mem_ids (h : Level s filter root depth level x) {id : TermId} :
    id ∈ x.ids ↔ ∃ n, n ≤ depth ∧ IsDistance s filter root n id := by
  constructor
  · intro hid
    obtain ⟨p, hp, rfl⟩ := List.mem_map.1 hid
    exact ⟨p.2, h.distance p hp⟩
  · rintro ⟨n, hn, hdistance⟩
    exact h.complete n id hn hdistance

theorem initial {t : Term} (hlive : liveRecord s root = some t) (ht : t.id = root) :
    Level s filter root 0 [root] { found := [(t, 0)] } where
  first := by rw [← ht]; rfl
  nodup := List.nodup_singleton _
  sorted := List.pairwise_singleton _ _
  records p hp := by
    rw [List.mem_singleton.1 hp]
    show liveRecord s t.id = some t
    rw [ht, hlive]
  distance p hp := by
    rw [List.mem_singleton.1 hp]
    exact ⟨Nat.le_refl 0, isDistance_zero_iff.2 ht⟩
  complete n id hn h := by
    obtain rfl : n = 0 := by omega
    rw [isDistance_zero_iff.1 h, ← ht]
    exact List.mem_singleton_self _
  nodup_level := List.nodup_singleton _
  mem_level id := by rw [List.mem_singleton, isDistance_zero_iff]
  nodup_links := List.nodup_nil
  mem_links e := by
    constructor
    · intro he; cases he
    · rintro ⟨-, n, hn, -⟩; omega

/-! ## One level -/

theorem live_of_mem_ids (h : Level s filter root depth level x)
    (hroot : (liveRecord s root).isSome = true) :
    ∀ id ∈ x.ids, (liveRecord s id).isSome = true := by
  intro id hid
  obtain ⟨n, -, hdistance⟩ := h.mem_ids.1 hid
  exact hdistance.hops.live hroot

variable {next : Exploration} {new : List (Term × Nat)}

/-- Whatever a level discovers lies farther than all that was found. -/
theorem sorted_of_discovers (h : Level s filter root depth level x)
    (hnew : Discovers s depth (departures s filter level) x next new) :
    (next.found.map (·.2)).Pairwise (· ≤ ·) := by
  rw [hnew.found_eq, List.map_append, List.pairwise_append]
  refine ⟨h.sorted, ?_, ?_⟩
  · refine List.pairwise_map.2 (List.pairwise_of_forall_mem_list ?_)
    intro p hp q hq
    rw [(hnew.records p hp).1, (hnew.records q hq).1]
  · intro n hn n' hn'
    obtain ⟨p, hp, rfl⟩ := List.mem_map.1 hn
    obtain ⟨q, hq, rfl⟩ := List.mem_map.1 hn'
    have hle := (h.distance p hp).1
    have heq := (hnew.records q hq).1
    show p.2 ≤ q.2
    omega

theorem records_of_discovers (h : Level s filter root depth level x)
    (hnew : Discovers s depth (departures s filter level) x next new) :
    ∀ p ∈ next.found, liveRecord s p.1.id = some p.1 := by
  intro p hp
  rw [hnew.found_eq] at hp
  rcases List.mem_append.1 hp with hp | hp
  · exact h.records p hp
  · exact (hnew.records p hp).2

section Step

variable [LawfulStore σ] (hs : Sound s) (hroot : (liveRecord s root).isSome = true)
  (hfilter : ∀ type ∈ filter, isTypeName type = true)

include hs hroot hfilter

theorem mem_leaving_iff (h : Level s filter root depth level x) {id : TermId} (hid : id ∈ level)
    {e : Edge} :
    e ∈ leaving s id filter ↔ e ∈ links s ∧ e.source = id ∧ filter.accepts e.type = true := by
  have hlive := ((h.mem_level id).1 hid).hops.live hroot
  obtain ⟨t, ht⟩ := Option.isSome_iff_exists.1 hlive
  exact mem_leaving hs (known_of_liveRecord ht) hfilter

theorem mem_departures (h : Level s filter root depth level x) {e : Edge} :
    e ∈ departures s filter level ↔
      e ∈ links s ∧ filter.accepts e.type = true ∧ IsDistance s filter root depth e.source := by
  unfold departures
  rw [List.mem_flatMap]
  constructor
  · rintro ⟨id, hid, he⟩
    obtain ⟨hstored, rfl, haccepted⟩ := (h.mem_leaving_iff hs hroot hfilter hid).1 he
    exact ⟨hstored, haccepted, (h.mem_level _).1 hid⟩
  · rintro ⟨hstored, haccepted, hdistance⟩
    have hid := (h.mem_level _).2 hdistance
    refine ⟨e.source, hid, ?_⟩
    exact (h.mem_leaving_iff hs hroot hfilter hid).2 ⟨hstored, rfl, haccepted⟩

theorem nodup_departures (h : Level s filter root depth level x) :
    (departures s filter level).Nodup := by
  unfold departures
  rw [List.nodup_flatMap]
  refine ⟨fun id _ => nodup_leaving id filter hs, ?_⟩
  refine h.nodup_level.imp_of_mem ?_
  intro id id' hid hid' hne e he he'
  have hsource := ((h.mem_leaving_iff hs hroot hfilter hid).1 he).2.1
  have hsource' := ((h.mem_leaving_iff hs hroot hfilter hid').1 he').2.1
  exact hne (hsource.symm.trans hsource')

/-- What a level discovers is what lies one hop further. -/
theorem mem_new_iff (h : Level s filter root depth level x)
    (hnew : Discovers s depth (departures s filter level) x next new) (id : TermId) :
    id ∈ new.map (·.1.id) ↔ IsDistance s filter root (depth + 1) id := by
  rw [hnew.mem_new, isDistance_succ_iff]
  refine and_congr ?_ ?_
  · rw [h.mem_ids]
    constructor
    · intro hfar m hm hdistance
      exact hfar ⟨m, hm, hdistance⟩
    · rintro hfar ⟨m, hm, hdistance⟩
      exact hfar m hm hdistance
  · constructor
    · rintro ⟨e, he, rfl, hlive⟩
      obtain ⟨hstored, haccepted, hdistance⟩ := (h.mem_departures hs hroot hfilter).1 he
      exact ⟨e, ⟨hstored, haccepted, hlive⟩, hdistance, rfl⟩
    · rintro ⟨e, he, hdistance, rfl⟩
      have hmem := (h.mem_departures hs hroot hfilter).2 ⟨he.stored, he.accepted, hdistance⟩
      exact ⟨e, hmem, rfl, he.live⟩

theorem distance_of_discovers (h : Level s filter root depth level x)
    (hnew : Discovers s depth (departures s filter level) x next new) :
    ∀ p ∈ next.found, p.2 ≤ depth + 1 ∧ IsDistance s filter root p.2 p.1.id := by
  intro p hp
  rw [hnew.found_eq] at hp
  rcases List.mem_append.1 hp with hp | hp
  · obtain ⟨hle, hdistance⟩ := h.distance p hp
    exact ⟨by omega, hdistance⟩
  · have hdistance := (h.mem_new_iff hs hroot hfilter hnew p.1.id).1 (List.mem_map_of_mem hp)
    rw [(hnew.records p hp).1]
    exact ⟨Nat.le_refl _, hdistance⟩

theorem complete_of_discovers (h : Level s filter root depth level x)
    (hnew : Discovers s depth (departures s filter level) x next new) :
    ∀ n id, n ≤ depth + 1 → IsDistance s filter root n id → id ∈ next.ids := by
  intro n id hn hdistance
  rw [hnew.mem_ids]
  by_cases hle : n ≤ depth
  · exact .inl (h.complete n id hle hdistance)
  · obtain rfl : n = depth + 1 := by omega
    exact .inr ((h.mem_new_iff hs hroot hfilter hnew id).2 hdistance)

/-- The edges that a level keeps leave terms at its depth, so none was kept before. -/
theorem nodup_links_of_discovers (h : Level s filter root depth level x)
    (hnew : Discovers s depth (departures s filter level) x next new) : next.links.Nodup := by
  rw [hnew.links_eq, List.nodup_append]
  refine ⟨h.nodup_links, (h.nodup_departures hs hroot hfilter).filter _, ?_⟩
  rintro e he e' he' rfl
  obtain ⟨-, n, hn, hnear⟩ := (h.mem_links e).1 he
  have hfar := ((h.mem_departures hs hroot hfilter).1 (List.mem_filter.1 he').1).2.2
  have heq := hnear.eq hfar
  omega

theorem mem_links_of_discovers (h : Level s filter root depth level x)
    (hnew : Discovers s depth (departures s filter level) x next new) (e : Edge) :
    e ∈ next.links ↔
      Followed s filter e ∧ ∃ n, n < depth + 1 ∧ IsDistance s filter root n e.source := by
  rw [hnew.links_eq, List.mem_append, List.mem_filter, h.mem_links,
    h.mem_departures hs hroot hfilter]
  constructor
  · rintro (⟨he, n, hn, hdistance⟩ | ⟨⟨hstored, haccepted, hdistance⟩, hlive⟩)
    · exact ⟨he, n, by omega, hdistance⟩
    · exact ⟨⟨hstored, haccepted, hlive⟩, depth, by omega, hdistance⟩
  · rintro ⟨he, n, hn, hdistance⟩
    by_cases hlt : n < depth
    · exact .inl ⟨he, n, hlt, hdistance⟩
    · obtain rfl : n = depth := by omega
      exact .inr ⟨⟨he.stored, he.accepted, hdistance⟩, he.live⟩

/-- One level leads to the next. -/
theorem step (h : Level s filter root depth level x) :
    let next := x.followAll s none depth (departures s filter level)
    Level s filter root (depth + 1) (x.beyond next) next := by
  intro next
  obtain ⟨new, hnew⟩ := exists_discovers hs depth (departures s filter level) x
    (h.live_of_mem_ids hroot)
  have hbeyond : x.beyond next = new.map (·.1.id) := by
    unfold beyond
    rw [hnew.found_eq, List.drop_left]
  have hids : next.ids = x.ids ++ new.map (·.1.id) := by
    unfold ids
    rw [hnew.found_eq, List.map_append]
  rw [hbeyond]
  refine
    { first := ?_
      nodup := ?_
      sorted := h.sorted_of_discovers hnew
      records := h.records_of_discovers hnew
      distance := h.distance_of_discovers hs hroot hfilter hnew
      complete := h.complete_of_discovers hs hroot hfilter hnew
      nodup_level := hnew.nodup
      mem_level := h.mem_new_iff hs hroot hfilter hnew
      nodup_links := h.nodup_links_of_discovers hs hroot hfilter hnew
      mem_links := h.mem_links_of_discovers hs hroot hfilter hnew }
  · rw [hids, List.head?_append, h.first]
    rfl
  · rw [hids, List.nodup_append]
    refine ⟨h.nodup, hnew.nodup, ?_⟩
    rintro id hid id' hid' rfl
    exact ((hnew.mem_new id).1 hid').1 hid

/-- All levels, by induction on how many are left. -/
theorem search (levels : Nat) :
    ∀ (depth : Nat) (level : List TermId) (x : Exploration),
      Level s filter root depth level x →
        ∃ last, Level s filter root (depth + levels) last
          (Exploration.search s filter none levels depth level x) := by
  induction levels with
  | zero => intro depth level x h; exact ⟨level, h⟩
  | succ levels ih =>
      intro depth level x h
      obtain ⟨last, hlast⟩ := ih (depth + 1) _ _ (h.step hs hroot hfilter)
      have hdepth : depth + 1 + levels = depth + (levels + 1) := by omega
      rw [hdepth] at hlast
      exact ⟨last, hlast⟩

end Step

end Level

/-! ## The neighbourhood -/

/-- The neighbourhood that a search has come to. -/
def Exploration.drawn (x : Exploration) (r : Relations) (root : TermId) (maxDepth : Nat) :
    Neighbourhood where
  root := root
  nodes := x.found.map fun (t, depth) =>
    { id := t.id, label := t.label, fullName := t.fullName, depth := depth
      isolated := !x.touches t.id }
  edges := x.links.map (·.drawn r.registry)
  maxDepth := maxDepth
  truncated := x.truncated

theorem Edge.edge_drawn (registry : Registry) (e : Edge) : (e.drawn registry).edge = e := by
  unfold drawn
  cases registry.get? e.type with
  | none => rfl
  | some type => rfl

/-- A filter names no unknown type exactly when all its types are registered. -/
theorem Registry.find?_not_contains_eq_none_iff {r : Registry} {filter : TypeFilter} :
    filter.find? (fun type => !r.contains type) = none ↔
      ∀ type ∈ filter, r.contains type = true := by
  rw [List.find?_eq_none]
  refine forall₂_congr fun type _ => ?_
  rw [Bool.not_eq_true', Bool.not_eq_false]

namespace Relations

section Requests

variable {τ : Type} [Store τ] (r : Relations)

theorem neighbourhood_of_unknown (u : τ) (root : TermId) (maxDepth : Nat) {filter : TypeFilter}
    (cap : Option Nat) {unknown : String}
    (hfilter : filter.find? (fun type => !r.registry.contains type) = some unknown) :
    (r.neighbourhood root maxDepth filter cap).run u = (.error (.invalidType unknown), u) := by
  unfold neighbourhood
  rw [hfilter]
  rfl

variable {u u' : τ} {root : TermId} (maxDepth : Nat) {filter : TypeFilter} (cap : Option Nat)

theorem neighbourhood_of_gone (hgone : (r.liveTerm? root).run u = (.ok none, u))
    (hfilter : ∀ type ∈ filter, r.registry.contains type = true) :
    (r.neighbourhood root maxDepth filter cap).run u = (.error (.termNotFound root), u) := by
  unfold neighbourhood
  rw [Registry.find?_not_contains_eq_none_iff.2 hfilter]
  show (r.liveTerm? root >>= _).run u = _
  rw [run_bind_ok hgone]
  rfl

theorem neighbourhood_of_explore {t : Term} {x : Exploration}
    (hlive : (r.liveTerm? root).run u = (.ok (some t), u))
    (hfilter : ∀ type ∈ filter, r.registry.contains type = true)
    (hexplore : (r.explore filter cap maxDepth 0 [root] { found := [(t, 0)] }).run u =
      (.ok x, u')) :
    (r.neighbourhood root maxDepth filter cap).run u = (.ok (x.drawn r root maxDepth), u') := by
  unfold neighbourhood
  rw [Registry.find?_not_contains_eq_none_iff.2 hfilter]
  show (r.liveTerm? root >>= _).run u = _
  rw [run_bind_ok hlive]
  show (r.explore filter cap maxDepth 0 [root] { found := [(t, 0)] } >>= _).run u = _
  rw [run_bind_ok hexplore]
  rfl

end Requests

variable [LawfulStore σ] (r : Relations) (s : σ) {root : TermId} (maxDepth : Nat)
  {filter : TypeFilter} (cap : Option Nat)

theorem neighbourhood_run {t : Term} (ht : liveRecord s root = some t)
    (hfilter : ∀ type ∈ filter, r.registry.contains type = true) :
    (r.neighbourhood root maxDepth filter cap).run s =
      (.ok ((Exploration.search s filter cap maxDepth 0 [root] { found := [(t, 0)] }).drawn r root
        maxDepth), s) :=
  r.neighbourhood_of_explore maxDepth cap (by rw [r.liveTerm?_run, ht]) hfilter
    (r.explore_run s filter cap maxDepth 0 [root] _)

theorem neighbourhood_of_not_live (hroot : liveRecord s root = none)
    (hfilter : ∀ type ∈ filter, r.registry.contains type = true) :
    (r.neighbourhood root maxDepth filter cap).run s = (.error (.termNotFound root), s) :=
  r.neighbourhood_of_gone maxDepth cap (by rw [r.liveTerm?_run, hroot]) hfilter

end Relations

/-- Around a live term, without a cap and for a filter of registered types, the
terms are the live terms that some path of at most `maxDepth` edges leads to, each
once, the root first and the nearer before the farther, with the length of a shortest
path as depth; and the edges are those that may be followed from terms nearer than
`maxDepth`, each once. -/
theorem neighbourhood_exact (b : Backend) (s : b.State) (hs : Built s) (r : Relations)
    (root : TermId) (maxDepth : Nat) (filter : TypeFilter)
    (hroot : (liveRecord s root).isSome = true)
    (hfilter : ∀ type ∈ filter, r.registry.contains type = true) :
    ∃ g, (r.neighbourhood root maxDepth filter none).run s = (.ok g, s) ∧
      (g.nodes.map (·.id)).head? = some root ∧
      (g.nodes.map (·.id)).Nodup ∧
      (g.nodes.map (·.depth)).Pairwise (· ≤ ·) ∧
      (∀ id, id ∈ g.nodes.map (·.id) ↔ ∃ n, n ≤ maxDepth ∧ Hops s filter root n id) ∧
      (∀ node ∈ g.nodes, IsDistance s filter root node.depth node.id) ∧
      (∀ node ∈ g.nodes, ∃ t, liveRecord s node.id = some t ∧
        node.label = t.label ∧ node.fullName = t.fullName) ∧
      (g.edges.map (·.edge)).Nodup ∧
      (∀ e, e ∈ g.edges.map (·.edge) ↔ Followed s filter e ∧
        ∃ node ∈ g.nodes, node.id = e.source ∧ node.depth < maxDepth) := by
  have hsound := sound_of_built hs
  obtain ⟨t, ht⟩ := Option.isSome_iff_exists.1 hroot
  have hnames : ∀ type ∈ filter, isTypeName type = true :=
    fun type htype => Registry.isTypeName_of_contains (hfilter type htype)
  obtain ⟨last, h⟩ := Level.search hsound hroot hnames maxDepth 0 [root] _
    (.initial ht (id_of_liveRecord hsound ht))
  rw [Nat.zero_add] at h
  refine ⟨_, r.neighbourhood_run s maxDepth none ht hfilter, ?_⟩
  generalize Exploration.search s filter none maxDepth 0 [root] { found := [(t, 0)] } = x at h
  have hids : (x.drawn r root maxDepth).nodes.map (·.id) = x.ids := List.map_map
  have hdepths : (x.drawn r root maxDepth).nodes.map (·.depth) = x.found.map (·.2) := List.map_map
  have hnode : ∀ node ∈ (x.drawn r root maxDepth).nodes,
      ∃ p ∈ x.found, p.1.id = node.id ∧ p.2 = node.depth := by
    intro node hnode
    obtain ⟨p, hp, rfl⟩ := List.mem_map.1 hnode
    exact ⟨p, hp, rfl, rfl⟩
  have hedges : (x.drawn r root maxDepth).edges.map (·.edge) = x.links := by
    refine List.map_map.trans ((List.map_congr_left fun e _ => ?_).trans (List.map_id _))
    exact e.edge_drawn r.registry
  rw [hids, hdepths, hedges]
  refine ⟨h.first, h.nodup, h.sorted, ?_, ?_, ?_, h.nodup_links, ?_⟩
  · intro id
    rw [h.mem_ids]
    constructor
    · rintro ⟨n, hn, hdistance⟩
      exact ⟨n, hn, hdistance.hops⟩
    · rintro ⟨n, hn, hhops⟩
      obtain ⟨m, hm, hdistance⟩ := hhops.exists_isDistance
      exact ⟨m, by omega, hdistance⟩
  · intro node hmem
    obtain ⟨p, hp, hid, hdepth⟩ := hnode node hmem
    rw [← hid, ← hdepth]
    exact (h.distance p hp).2
  · intro node hmem
    obtain ⟨p, hp, rfl⟩ := List.mem_map.1 hmem
    exact ⟨p.1, h.records p hp, rfl, rfl⟩
  · intro e
    rw [h.mem_links]
    refine and_congr_right fun _ => ?_
    constructor
    · rintro ⟨n, hn, hdistance⟩
      obtain ⟨p, hp, hid⟩ := List.mem_map.1 (h.complete n e.source (by omega) hdistance)
      refine ⟨_, List.mem_map_of_mem hp, hid, ?_⟩
      have hdistance' := (h.distance p hp).2
      rw [hid] at hdistance'
      have heq := hdistance.eq hdistance'
      show p.2 < maxDepth
      omega
    · rintro ⟨node, hmem, hid, hdepth⟩
      obtain ⟨p, hp, hpid, hpdepth⟩ := hnode node hmem
      refine ⟨p.2, by omega, ?_⟩
      rw [← hid, ← hpid]
      exact (h.distance p hp).2

/-- Of two terms that broader and narrower lead between, each is one hop away. -/
theorem neighbourhood_of_pair :
    let glossary : Glossary := { id := ⟨"art"⟩, name := "Art" }
    let cubism : Term := .topLevel ⟨"cubism"⟩ glossary "Cubism"
    let painting : Term := .topLevel ⟨"painting"⟩ glossary "Painting"
    let up : Edge := { source := cubism.id, target := painting.id, type := "broader" }
    let down : Edge := { source := painting.id, target := cubism.id, type := "narrower" }
    let writes : List Write :=
      [.edit (.putTerm cubism), .edit (.putTerm painting), .addEdge up, .addEdge down]
    let s : Backend.State .memory := writes.foldl (fun s w => w.run s) EditableStore.empty
    let r : Relations := { registry := .builtin }
    Built s ∧ ∃ g, (r.neighbourhood cubism.id 3 ["broader", "narrower"] none).run s = (.ok g, s) ∧
      (g.nodes.map (·.id)).Nodup ∧ painting.id ∈ g.nodes.map (·.id) := by
  intro glossary cubism painting up down writes s r
  have hs : Built s := .writes writes _ .empty
  obtain ⟨g, hrun, -, hnodup, -, hnodes, -⟩ := neighbourhood_exact .memory s hs r cubism.id 3
    ["broader", "narrower"] rfl (by decide +kernel)
  have hup : Followed s ["broader", "narrower"] up := ⟨by decide +kernel, rfl, rfl⟩
  exact ⟨hs, g, hrun, hnodup, (hnodes painting.id).2 ⟨1, by omega, .hop up .root hup⟩⟩

end Thesaurus
