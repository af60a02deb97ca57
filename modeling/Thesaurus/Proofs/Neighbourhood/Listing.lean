import Thesaurus.Proofs.Neighbourhood.Growth
import Thesaurus.Proofs.Sheet.Document

/-!
# Listings and neighbourhoods

A listing goes through the edges that leave a term and asks for each target. A search
asks for a target only if it has not found it yet, and goes on to other terms. Still
they show the same edges of the term in the same order: a target that was found is
live, so the search keeps just the edges to live targets when it expands the root, and
what it keeps later leaves other terms.

## Main definitions

* `CellEntry.Tells`: an entry that names the target of a link.

## Main results

* `Level.links_of_root`: the edges of a search that leave the root.
* `listing_agrees_with_neighbourhood`: listings, neighbourhoods and cells.
-/

namespace Thesaurus

open Store LawfulStore Exploration

variable {σ : Type} [EditableStore σ]

/-! ## What leaves the root -/

/-- Of the edges that leave the root, a search without a cap keeps those to live
targets, as they are listed, whatever the number of levels is. -/
theorem Level.links_of_root [LawfulStore σ] {s : σ} (hs : Sound s) {root : TermId} {t : Term}
    (ht : liveRecord s root = some t) {filter : TypeFilter}
    (hfilter : ∀ type ∈ filter, isTypeName type = true) (levels : Nat) :
    (Exploration.search s filter none (levels + 1) 0 [root] { found := [(t, 0)] }).links.filter
        (fun e => e.source = root) =
      (leaving s root filter).filter (leadsToLive s) := by
  have hroot : (liveRecord s root).isSome = true := by rw [ht]; rfl
  have hinitial : Level s filter root 0 [root] { found := [(t, 0)] } :=
    .initial ht (id_of_liveRecord hs ht)
  have hfirst := hinitial.step hs hroot hfilter
  obtain ⟨new, hnew⟩ := exists_discovers hs 0 (departures s filter [root]) _
    (hinitial.live_of_mem_ids hroot)
  have hdepartures : departures s filter [root] = leaving s root filter :=
    List.flatMap_singleton _ root
  rw [search_succ]
  generalize followAll s none 0 (departures s filter [root]) { found := [(t, 0)] } = next
    at hfirst hnew
  obtain ⟨last, hlast⟩ := Level.search hs hroot hfilter levels 1 _ next hfirst
  obtain ⟨later, hlater⟩ := (search_extends s filter none levels 1 _ next).links
  rw [← hlater, List.filter_append]
  have hkept : next.links = (leaving s root filter).filter (leadsToLive s) := by
    rw [hnew.links_eq, hdepartures]
    rfl
  have hall : next.links.filter (fun e => e.source = root) = next.links := by
    refine List.filter_eq_self.2 fun e he => ?_
    rw [hkept] at he
    have hleaving := (mem_leaving hs (known_of_liveRecord ht) hfilter).1 (List.mem_filter.1 he).1
    simpa using hleaving.2.1
  -- A later edge of the root would have been kept at once, and edges are kept once.
  have hnone : later.filter (fun e => e.source = root) = [] := by
    refine List.filter_eq_nil_iff.2 fun e he hsource => ?_
    have hmem : e ∈ next.links := by
      have hfollowed := (hlast.mem_links e).1 (hlater ▸ List.mem_append_right _ he)
      refine (hfirst.mem_links e).2 ⟨hfollowed.1, 0, Nat.zero_lt_one, ?_⟩
      exact isDistance_zero_iff.2 (by simpa using hsource)
    have hnodup := hlast.nodup_links
    rw [← hlater] at hnodup
    exact (List.nodup_append.1 hnodup).2.2 e hmem e he rfl
  rw [hall, hnone, List.append_nil, hkept]

/-! ## What is listed -/

/-- A listing shows the edges to live targets. -/
theorem listed_links [LawfulStore σ] {s : σ} (hs : Sound s) (id : TermId) :
    (Relations.listed s id).map (fun x => (x.type, x.term.id)) =
      ((leaving s id []).filter (leadsToLive s)).map fun e => (e.type, e.target) := by
  unfold Relations.listed
  induction leaving s id [] with
  | nil => rfl
  | cons e rest ih =>
      cases ht : liveRecord s e.target with
      | none =>
          have hgone : ¬ leadsToLive s e = true := by unfold leadsToLive; rw [ht]; simp
          rw [List.filter_cons_of_neg hgone, ← ih, List.filterMap_cons_none (by rw [ht]; rfl)]
      | some t =>
          have hlive : leadsToLive s e = true := by unfold leadsToLive; rw [ht]; rfl
          rw [List.filter_cons_of_pos hlive, List.map_cons, ← ih,
            List.filterMap_cons_some (by rw [ht]; rfl), List.map_cons]
          show (e.type, t.id) :: _ = _
          rw [id_of_liveRecord hs ht]

/-- An entry with the type of a link and the full name of the live term that it leads
to. -/
def CellEntry.Tells (s : σ) (link : String × TermId) (entry : CellEntry) : Prop :=
  entry.type = link.1 ∧ ∃ t, liveRecord s link.2 = some t ∧ entry.target = t.fullName

/-- The entries of a cell tell what is listed, one by one. -/
theorem cellEntries_tell [LawfulStore σ] {s : σ} (hs : Sound s) (id : TermId) :
    List.Forall₂ (CellEntry.Tells s)
      ((Relations.listed s id).map fun x => (x.type, x.term.id)) (Relations.cellEntries s id) := by
  rw [Relations.cellEntries, List.forall₂_map_left_iff, List.forall₂_map_right_iff,
    List.forall₂_same]
  intro x hx
  obtain ⟨e, -, hex⟩ := List.mem_filterMap.1 hx
  obtain ⟨t, ht, rfl⟩ := Option.map_eq_some_iff.1 hex
  refine ⟨rfl, t, ?_, rfl⟩
  show liveRecord s t.id = some t
  rw [id_of_liveRecord hs ht, ht]

/-- For a live term, the relations that are listed and the edges that leave the term in
a neighbourhood of any depth but zero are the same links in the same order, and the cell
of the term tells these links with the full names of their targets. -/
theorem listing_agrees_with_neighbourhood (b : Backend) (s : b.State) (hs : Built s)
    (r : Relations) (id : TermId) (hlive : (liveRecord s id).isSome = true) :
    ∃ (links : List (String × TermId)) (entries : List CellEntry),
      (∃ related, (r.relationsOf id).run s = (.ok related, s) ∧
        related.map (fun x => (x.type, x.term.id)) = links) ∧
      (∀ maxDepth, 1 ≤ maxDepth → ∃ g, (r.neighbourhood id maxDepth [] none).run s = (.ok g, s) ∧
        ((g.edges.map (·.edge)).filter fun e => e.source = id).map
          (fun e => (e.type, e.target)) = links) ∧
      (r.cellOf id).run s = (.ok (Cell.encode r.registry entries), s) ∧
      List.Forall₂ (CellEntry.Tells s) links entries := by
  have hsound := sound_of_built hs
  obtain ⟨t, ht⟩ := Option.isSome_iff_exists.1 hlive
  have hlisted := r.relationsOf_run s id
  rw [ht] at hlisted
  refine ⟨_, _, ⟨_, hlisted, rfl⟩, fun maxDepth hdepth => ?_, r.cellOf_run ht,
    cellEntries_tell hsound id⟩
  obtain ⟨levels, rfl⟩ := Nat.exists_eq_add_of_le' hdepth
  refine ⟨_, r.neighbourhood_run s (levels + 1) none ht (by simp), ?_⟩
  rw [Exploration.edges_drawn, Level.links_of_root hsound ht (by simp), listed_links hsound]

/-- Of the two edges of cubism one leads to a deleted term, so the other one is what is
listed and what leaves cubism in every neighbourhood. -/
theorem cubism_listed_as_in_surroundings :
    let s := cubismSurroundings .ordered
    let r : Relations := { registry := .builtin }
    Built s ∧ (liveRecord s ⟨"cubism"⟩).isSome = true ∧
      ∀ maxDepth, 1 ≤ maxDepth → ∃ g,
        (r.neighbourhood ⟨"cubism"⟩ maxDepth [] none).run s = (.ok g, s) ∧
        ((g.edges.map (·.edge)).filter fun e => e.source = ⟨"cubism"⟩).map
          (fun e => (e.type, e.target)) = [("broader", ⟨"painting"⟩)] := by
  intro s r
  have hs : Built s := built_cubismSurroundings .ordered
  have hlive : (liveRecord s ⟨"cubism"⟩).isSome = true := by decide +kernel
  obtain ⟨links, entries, ⟨related, hrelated, hlinks⟩, hgraphs, -⟩ :=
    listing_agrees_with_neighbourhood .ordered s hs r ⟨"cubism"⟩ hlive
  have hlisted : ((r.relationsOf ⟨"cubism"⟩).run s).1.toOption.map
      (·.map fun x => (x.type, x.term.id)) = some [("broader", ⟨"painting"⟩)] := by
    decide +kernel
  rw [hrelated] at hlisted
  obtain rfl : links = [("broader", ⟨"painting"⟩)] := hlinks.symm.trans (Option.some.inj hlisted)
  exact ⟨hs, hlive, hgraphs⟩

end Thesaurus
