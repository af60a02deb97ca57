import Thesaurus.Proofs.Neighbourhood.Growth

/-!
# How the terms of a neighbourhood hang together

Whatever the cap, a term is found by way of an edge from a term that is one hop
nearer, and that edge is kept. So every term but the root is touched by an edge, and
the root is touched as soon as there is any edge: the way back from where the edge
starts ends in the root.

## Main definitions

* `Edge.Leaves`: an edge from one of some terms at a depth.
* `Exploration.Connected`: what holds of a search after every edge.

## Main results

* `Exploration.Connected.search`: it holds of the whole search.
* `neighbourhood_connected`: ends, ways and flags in a neighbourhood.
-/

namespace Thesaurus

open Store LawfulStore

/-- An edge that leaves one of these terms, which is at this depth. -/
def Edge.Leaves (e : Edge) (terms : List (Term × Nat)) (depth : Nat) : Prop :=
  ∃ q ∈ terms, q.1.id = e.source ∧ q.2 = depth

theorem Edge.Leaves.mono {e : Edge} {terms terms' : List (Term × Nat)} {depth : Nat}
    (h : e.Leaves terms depth) (hterms : ∀ q ∈ terms, q ∈ terms') : e.Leaves terms' depth := by
  obtain ⟨q, hq, hends⟩ := h
  exact ⟨q, hterms q hq, hends⟩

namespace Exploration

section Touching

variable {x : Exploration} {e : Edge}

theorem touches_of_source (he : e ∈ x.links) : x.touches e.source = true :=
  List.any_eq_true.2 ⟨e, he, by simp⟩

theorem touches_of_target (he : e ∈ x.links) : x.touches e.target = true :=
  List.any_eq_true.2 ⟨e, he, by simp⟩

end Touching

variable {σ : Type} [EditableStore σ]

/-- A search in which terms are found once and by way of kept edges. -/
structure Connected (s : σ) (root : TermId) (x : Exploration) : Prop where
  root_mem : root ∈ x.ids
  nodup : x.ids.Nodup
  live : ∀ id ∈ x.ids, (liveRecord s id).isSome = true
  ends : ∀ e ∈ x.links, e.source ∈ x.ids ∧ e.target ∈ x.ids
  reached : ∀ p ∈ x.found, p.1.id ≠ root →
    ∃ e ∈ x.links, e.target = p.1.id ∧ ∃ q ∈ x.found, q.1.id = e.source ∧ q.2 + 1 = p.2

namespace Connected

variable {s : σ} {root : TermId} {filter : TypeFilter} {cap : Option Nat} {depth : Nat}
  {e : Edge} {x next : Exploration}

theorem initial {t : Term} (ht : liveRecord s root = some t) (hid : t.id = root) :
    Connected s root { found := [(t, 0)] } where
  root_mem := List.mem_singleton.2 hid.symm
  nodup := List.nodup_singleton _
  live id hmem := by
    have hroot : id = t.id := List.mem_singleton.1 hmem
    rw [hroot, hid, ht]
    rfl
  ends e he := by cases he
  reached p hp hne := by
    rw [List.mem_singleton.1 hp] at hne
    exact absurd hid hne

/-! ## One edge -/

/-- Another edge between terms that were found. -/
theorem link (h : Connected s root x) (hsource : e.source ∈ x.ids) (htarget : e.target ∈ x.ids) :
    Connected s root (x.link e) where
  root_mem := h.root_mem
  nodup := h.nodup
  live := h.live
  ends f hf := by
    rcases List.mem_append.1 hf with hf | hf
    · exact h.ends f hf
    · rw [List.mem_singleton.1 hf]
      exact ⟨hsource, htarget⟩
  reached p hp hne := by
    obtain ⟨f, hf, hrest⟩ := h.reached p hp hne
    exact ⟨f, List.mem_append_left _ hf, hrest⟩

theorem source_mem_ids (he : e.Leaves x.found depth) : e.source ∈ x.ids := by
  obtain ⟨q, hq, hsource, -⟩ := he
  rw [← hsource]
  exact List.mem_map_of_mem hq

/-- An edge to a term that was not found yet. -/
theorem discover {t : Term} (h : Connected s root x) (he : e.Leaves x.found depth)
    (htarget : e.target ∉ x.ids) (ht : liveRecord s e.target = some t)
    (hid : t.id = e.target) : Connected s root ((x.discover t (depth + 1)).link e) := by
  have hids : ((x.discover t (depth + 1)).link e).ids = x.ids ++ [t.id] := List.map_append
  refine
    { root_mem := ?_
      nodup := ?_
      live := ?_
      ends := ?_
      reached := ?_ }
  · rw [hids]
    exact List.mem_append_left _ h.root_mem
  · rw [hids, hid, List.nodup_append]
    refine ⟨h.nodup, List.nodup_singleton _, ?_⟩
    rintro id hmem id' hmem' rfl
    rw [List.mem_singleton.1 hmem'] at hmem
    exact htarget hmem
  · intro id hmem
    rw [hids, List.mem_append, List.mem_singleton] at hmem
    rcases hmem with hmem | rfl
    · exact h.live id hmem
    · rw [hid, ht]
      rfl
  · intro f hf
    rw [hids]
    rcases List.mem_append.1 hf with hf | hf
    · exact ⟨List.mem_append_left _ (h.ends f hf).1, List.mem_append_left _ (h.ends f hf).2⟩
    · rw [List.mem_singleton.1 hf]
      exact ⟨List.mem_append_left _ (source_mem_ids he),
        List.mem_append_right _ (List.mem_singleton.2 hid.symm)⟩
  · intro p hp hne
    rcases List.mem_append.1 hp with hp | hp
    · obtain ⟨f, hf, htarget, q, hq, hrest⟩ := h.reached p hp hne
      exact ⟨f, List.mem_append_left _ hf, htarget, q, List.mem_append_left _ hq, hrest⟩
    · obtain ⟨q, hq, hsource, hdepth⟩ := he
      rw [List.mem_singleton.1 hp]
      refine ⟨e, List.mem_append_right _ (List.mem_singleton_self e), hid.symm, q,
        List.mem_append_left _ hq, hsource, ?_⟩
      rw [hdepth]

theorem meets [LawfulStore σ] (hs : Sound s) (h : Connected s root x)
    (he : e.Leaves x.found depth) (hmeets : Meets s cap depth x e next) :
    Connected s root next := by
  cases hmeets with
  | known htarget => exact h.link (source_mem_ids he) htarget
  | cutOff _ _ => exact ⟨h.root_mem, h.nodup, h.live, h.ends, h.reached⟩
  | gone _ _ _ => exact h
  | new htarget _ ht => exact h.discover he htarget ht (id_of_liveRecord hs ht)

/-! ## One level, and all of them -/

/-- The edges of a level leave the terms of that level. -/
theorem leaves_of_mem_departures [LawfulStore σ] (hs : Sound s) (h : Connected s root x)
    (hfilter : ∀ type ∈ filter, isTypeName type = true) {terms : List (Term × Nat)}
    (hterms : ∀ p ∈ terms, p ∈ x.found ∧ p.2 = depth)
    (he : e ∈ departures s filter (terms.map (·.1.id))) : e.Leaves terms depth := by
  obtain ⟨id, hid, he⟩ := List.mem_flatMap.1 he
  obtain ⟨p, hp, rfl⟩ := List.mem_map.1 hid
  obtain ⟨hfound, hdepth⟩ := hterms p hp
  obtain ⟨t, ht⟩ := Option.isSome_iff_exists.1 (h.live p.1.id (List.mem_map_of_mem hfound))
  have hsource := ((mem_leaving hs (known_of_liveRecord ht) hfilter).1 he).2.1
  exact ⟨p, hp, hsource.symm, hdepth⟩

theorem pass [LawfulStore σ] (hs : Sound s) (h : Connected s root x) (cap : Option Nat)
    {es : List Edge} (hes : ∀ e ∈ es, e.Leaves x.found depth) :
    Connected s root (x.followAll s cap depth es) := by
  have hpass : Connected s root (x.followAll s cap depth es) ∧
      Extends x (x.followAll s cap depth es) := by
    refine List.foldlRecOn es (follow s cap depth)
      (motive := fun y => Connected s root y ∧ Extends x y) ⟨h, .refl x⟩ ?_
    rintro y ⟨hy, hextends⟩ e he
    have hmeets := meets_follow s cap depth y e
    have hleaves := (hes e he).mono fun q hq => hextends.found.subset hq
    exact ⟨hy.meets hs hleaves hmeets, hextends.trans hmeets.extends⟩
  exact hpass.1

/-- All levels, by induction on how many are left. -/
theorem search [LawfulStore σ] (hs : Sound s)
    (hfilter : ∀ type ∈ filter, isTypeName type = true) (cap : Option Nat) (levels : Nat) :
    ∀ (depth : Nat) (earlier latest : List (Term × Nat)) (x : Exploration),
      Frontier depth earlier latest x → Connected s root x →
        Connected s root
          (Exploration.search s filter cap levels depth (latest.map (·.1.id)) x) := by
  induction levels with
  | zero => intro depth earlier latest x _ h; exact h
  | succ levels ih =>
      intro depth earlier latest x hfrontier h
      have hleaves : ∀ e ∈ departures s filter (latest.map (·.1.id)),
          e.Leaves x.found depth := fun e he =>
        (h.leaves_of_mem_departures hs hfilter hfrontier.of_mem_latest he).mono
          fun q hq => (hfrontier.of_mem_latest q hq).1
      obtain ⟨new, hnext, hbeyond⟩ := hfrontier.pass s cap
        (departures s filter (latest.map (·.1.id)))
      rw [search_succ, hbeyond]
      exact ih (depth + 1) x.found new _ hnext (h.pass hs cap hleaves)

/-! ## Which terms are touched -/

/-- Once a term other than the root is found, the root is touched, by induction on the
depth of the term: the edge that led to it leaves the root or a nearer term. -/
theorem touches_root (h : Connected s root x) :
    ∀ (n : Nat) (p : Term × Nat), p ∈ x.found → p.2 = n → p.1.id ≠ root →
      x.touches root = true := by
  intro n
  induction n with
  | zero =>
      intro p hp hdepth hne
      obtain ⟨e, -, -, q, -, -, hq⟩ := h.reached p hp hne
      omega
  | succ n ih =>
      intro p hp hdepth hne
      obtain ⟨e, he, -, q, hq, hsource, hnearer⟩ := h.reached p hp hne
      by_cases hroot : q.1.id = root
      · rw [← hroot, hsource]
        exact touches_of_source he
      · exact ih q hq (by omega) hroot

theorem touches_eq_false_iff (h : Connected s root x) {p : Term × Nat} (hp : p ∈ x.found) :
    x.touches p.1.id = false ↔ p.1.id = root ∧ x.links = [] := by
  constructor
  · intro huntouched
    have hroot : p.1.id = root := by
      by_contra hne
      obtain ⟨e, he, htarget, -⟩ := h.reached p hp hne
      rw [← htarget, touches_of_target he] at huntouched
      cases huntouched
    refine ⟨hroot, List.eq_nil_iff_forall_not_mem.2 fun e he => ?_⟩
    obtain ⟨q, hq, hsource⟩ := List.mem_map.1 (h.ends e he).1
    have htouched : x.touches root = true := by
      by_cases hne : q.1.id = root
      · rw [← hne, hsource]
        exact touches_of_source he
      · exact h.touches_root q.2 q hq rfl hne
    rw [hroot, htouched] at huntouched
    cases huntouched
  · rintro ⟨-, hnone⟩
    unfold touches
    rw [hnone]
    rfl

end Connected

theorem contains_drawn (x : Exploration) (r : Relations) (root : TermId) (maxDepth : Nat)
    (id : TermId) : (x.drawn r root maxDepth).contains id = x.knows id := List.any_map

end Exploration

/-- Unless the filter is refused, for every cap, the neighbourhood of a live term lists
each of its terms once, the root among them; a term other than the root is the target of
an edge of the graph from a term that is one hop nearer; the ends of all edges are in the
graph; and just the root of a graph without edges is isolated. -/
theorem neighbourhood_connected (b : Backend) (s : b.State) (hs : Built s) (r : Relations)
    (root : TermId) (maxDepth : Nat) (filter : TypeFilter) (cap : Option Nat)
    (hroot : (liveRecord s root).isSome = true) :
    r.RefusesFilter s root filter ∨
      ∃ g, (r.neighbourhood root maxDepth filter cap).run s = (.ok g, s) ∧
        (g.nodes.map (·.id)).Nodup ∧ g.contains root = true ∧
        (∀ node ∈ g.nodes, node.id ≠ root → ∃ e ∈ g.edges, e.edge.target = node.id ∧
          ∃ source ∈ g.nodes, source.id = e.edge.source ∧ source.depth + 1 = node.depth) ∧
        (∀ e ∈ g.edges, g.contains e.edge.source = true ∧ g.contains e.edge.target = true) ∧
        ∀ node ∈ g.nodes, node.isolated = true ↔ node.id = root ∧ g.edges = [] := by
  have hsound := sound_of_built hs
  obtain ⟨t, ht⟩ := Option.isSome_iff_exists.1 hroot
  refine (r.neighbourhood_cases s filter ht).imp id ?_
  rintro ⟨hfilter, hrun⟩
  have hid := id_of_liveRecord hsound ht
  have h := Exploration.Connected.search hsound hfilter cap maxDepth 0 [] [(t, 0)] _
    (.initial t) (.initial ht hid)
  rw [List.map_singleton, hid] at h
  refine ⟨_, hrun maxDepth cap, ?_⟩
  generalize Exploration.search s filter cap maxDepth 0 [root] { found := [(t, 0)] } = x at h
  refine ⟨?_, ?_, ?_, ?_, ?_⟩
  · rw [Exploration.ids_drawn]
    exact h.nodup
  · rw [Exploration.contains_drawn]
    exact Exploration.knows_iff.2 h.root_mem
  · intro node hnode hne
    obtain ⟨p, hp, rfl⟩ := List.mem_map.1 hnode
    obtain ⟨e, he, htarget, q, hq, hsource, hdepth⟩ := h.reached p hp hne
    refine ⟨_, List.mem_map_of_mem he, ?_, _, List.mem_map_of_mem hq, ?_, hdepth⟩
    · rw [e.edge_drawn r.registry]
      exact htarget
    · rw [e.edge_drawn r.registry]
      exact hsource
  · intro e' he'
    obtain ⟨e, he, rfl⟩ := List.mem_map.1 he'
    rw [e.edge_drawn r.registry, Exploration.contains_drawn, Exploration.contains_drawn]
    exact ⟨Exploration.knows_iff.2 (h.ends e he).1, Exploration.knows_iff.2 (h.ends e he).2⟩
  · intro node hnode
    obtain ⟨p, hp, rfl⟩ := List.mem_map.1 hnode
    show (!x.touches p.1.id) = true ↔ p.1.id = root ∧ x.links.map _ = []
    rw [Bool.not_eq_true', h.touches_eq_false_iff hp, List.map_eq_nil_iff]

/-- Painting is found, by way of an edge from cubism. -/
theorem painting_connected_to_cubism :
    let s := cubismSurroundings .ordered
    let r : Relations := { registry := .builtin }
    Built s ∧ (liveRecord s ⟨"cubism"⟩).isSome = true ∧
      ∃ g, (r.neighbourhood ⟨"cubism"⟩ 2 [] (some 2)).run s = (.ok g, s) ∧
        g.outline = ([(⟨"cubism"⟩, 0), (⟨"painting"⟩, 1)], [cubismToPainting], true) ∧
        (∃ node ∈ g.nodes, node.id = ⟨"painting"⟩) ∧
        ∀ node ∈ g.nodes, node.id = ⟨"painting"⟩ →
          (∃ e ∈ g.edges, e.edge.target = ⟨"painting"⟩ ∧
            ∃ source ∈ g.nodes, source.id = e.edge.source ∧ source.depth + 1 = node.depth) ∧
          node.isolated = false := by
  intro s r
  have hs : Built s := built_cubismSurroundings .ordered
  have hroot : (liveRecord s ⟨"cubism"⟩).isSome = true := by decide +kernel
  have hfilter : ∀ type ∈ ([] : TypeFilter), r.registry.contains type = true := by simp
  obtain ⟨g, hrun, -, -, hreached, -, hisolated⟩ := (neighbourhood_connected .ordered s hs r
    ⟨"cubism"⟩ 2 [] (some 2) hroot).resolve_left (Relations.not_refusesFilter hfilter)
  have hg : g.outline = ([(⟨"cubism"⟩, 0), (⟨"painting"⟩, 1)], [cubismToPainting], true) :=
    Neighbourhood.outline_of_run hrun (by decide +kernel)
  have hpainting : ((⟨"painting"⟩ : TermId), 1) ∈ g.nodes.map fun node => (node.id, node.depth) := by
    rw [show g.nodes.map (fun node => (node.id, node.depth)) = _ from congrArg Prod.fst hg]
    simp
  obtain ⟨found, hfound, hpair⟩ := List.mem_map.1 hpainting
  refine ⟨hs, hroot, g, hrun, hg, ⟨found, hfound, congrArg Prod.fst hpair⟩,
    fun node hnode hid => ?_⟩
  have hother : node.id ≠ ⟨"cubism"⟩ := by
    rw [hid]
    decide
  refine ⟨hid ▸ hreached node hnode hother, ?_⟩
  rw [Bool.eq_false_iff, Ne, hisolated node hnode]
  exact fun hboth => hother hboth.1

end Thesaurus
