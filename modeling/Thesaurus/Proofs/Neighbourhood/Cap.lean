import Thesaurus.Proofs.Neighbourhood.Connected

/-!
# What a cap cuts off

A search with a cap beside the same search without one. As long as there is room the
two are the same. From then on the search with a cap finds nothing more; it still
expands the terms it has, and keeps the edges between them, while the other search
goes on, at last from terms that the first one does not have. So the first one ends
with a beginning of the terms, and with the edges among these.

The flag of a cut is set by the first edge after that to a term that was not found.
Nobody looks whether this term is live, so an edge to a deleted term sets the flag
too, although without a cap nothing more is found.

## Main definitions

* `GoneAtCap`: an edge to a term that is gone is met when the cap is reached.
* `Exploration.Cut`: the two searches after they have met some edges.

## Main results

* `Exploration.Cut.search`: how the two searches end.
* `neighbourhood_capped`: the terms and edges under a cap.
* `truncated_iff_more_or_gone`: when a neighbourhood is marked as truncated.
* `truncated_by_deleted_target`: one that is marked and misses nothing.
-/

namespace Thesaurus

open Store LawfulStore

/-! ## The edges that are met -/

section Met

variable {σ : Type} [Store σ]

/-- The terms that are found by way of some edges: the root and the live targets. -/
def reached (s : σ) (root : TermId) (met : List Edge) : Finset TermId :=
  insert root ((met.filter (Exploration.leadsToLive s)).map (·.target)).toFinset

/-- Among the edges that are met, in their order, one leads to no live term, and comes
after as many terms are found as the cap admits. -/
def GoneAtCap (s : σ) (root : TermId) (cap : Nat) (met : List Edge) : Prop :=
  ∃ before e, before ++ [e] <+: met ∧ liveRecord s e.target = none ∧
    cap ≤ (reached s root before).card

/-- The edges that the search for a neighbourhood meets, in their order: those that
leave the terms nearer than its depth. -/
def Neighbourhood.met (s : σ) (filter : TypeFilter) (g : Neighbourhood) : List Edge :=
  (g.nodes.filter fun node => node.depth < g.maxDepth).flatMap fun node =>
    leaving s node.id filter

variable {s : σ} {root : TermId} {cap : Nat} {met before : List Edge} {e : Edge}

theorem reached_append_of_live (he : (liveRecord s e.target).isSome = true) :
    reached s root (met ++ [e]) = insert e.target (reached s root met) := by
  have hlive : Exploration.leadsToLive s e = true := he
  unfold reached
  rw [List.filter_append, List.filter_cons_of_pos hlive, List.filter_nil, List.map_append,
    List.map_singleton, List.toFinset_append, List.toFinset_cons, List.toFinset_nil,
    Finset.insert_comm]
  congr 1
  rw [Finset.union_comm, Finset.insert_union, Finset.empty_union]

theorem reached_append_of_gone (he : liveRecord s e.target = none) :
    reached s root (met ++ [e]) = reached s root met := by
  have hgone : ¬ Exploration.leadsToLive s e = true := by
    unfold Exploration.leadsToLive
    rw [he]
    simp
  unfold reached
  rw [List.filter_append, List.filter_cons_of_neg hgone, List.filter_nil, List.append_nil]

theorem reached_subset (h : before <+: met) : reached s root before ⊆ reached s root met := by
  refine Finset.insert_subset_insert root fun id hid => ?_
  rw [List.mem_toFinset] at hid ⊢
  exact ((h.filter _).map _).subset hid

theorem goneAtCap_append_iff :
    GoneAtCap s root cap (met ++ [e]) ↔ GoneAtCap s root cap met ∨
      liveRecord s e.target = none ∧ cap ≤ (reached s root met).card := by
  constructor
  · rintro ⟨before, f, hprefix, hgone, hcap⟩
    rcases List.prefix_concat_iff.1 hprefix with hlast | hearlier
    · obtain ⟨rfl, heq⟩ := List.append_inj' hlast rfl
      obtain rfl := List.singleton_inj.1 heq
      exact .inr ⟨hgone, hcap⟩
    · exact .inl ⟨before, f, hearlier, hgone, hcap⟩
  · rintro (⟨before, f, hprefix, hrest⟩ | ⟨hgone, hcap⟩)
    · exact ⟨before, f, hprefix.trans (List.prefix_append _ _), hrest⟩
    · exact ⟨met, e, List.prefix_rfl, hgone, hcap⟩

/-- As long as there is room, no edge is met at the cap. -/
theorem not_goneAtCap (h : (reached s root met).card < cap) : ¬ GoneAtCap s root cap met := by
  rintro ⟨before, e, hprefix, -, hcap⟩
  have hsubset : reached s root before ⊆ reached s root met :=
    reached_subset ((List.prefix_append _ _).trans hprefix)
  have := Finset.card_le_card hsubset
  omega

end Met

namespace Exploration

variable {σ : Type} [EditableStore σ]

/-- Whether both ends of an edge have been found. -/
def joins (x : Exploration) (e : Edge) : Bool := x.knows e.source && x.knows e.target

theorem joins_iff {x : Exploration} {e : Edge} :
    x.joins e = true ↔ e.source ∈ x.ids ∧ e.target ∈ x.ids := by
  unfold joins
  rw [Bool.and_eq_true, knows_iff, knows_iff]

/-- A search without a cap after it has met some edges. -/
structure Whole (s : σ) (root : TermId) (met : List Edge) (x : Exploration) : Prop where
  connected : Connected s root x
  ids_eq : x.ids.toFinset = reached s root met
  untruncated : x.truncated = false

/-- A search with a cap, `x`, beside the one without, `y`, after the latter has met some
edges. -/
structure Cut (s : σ) (root : TermId) (cap : Nat) (met : List Edge) (y x : Exploration) :
    Prop where
  whole : Whole s root met y
  found_eq : x.found = y.found.take (max cap 1)
  links_eq : x.links = y.links.filter x.joins
  truncated_iff : x.truncated = true ↔
    max cap 1 < y.found.length ∨ GoneAtCap s root cap met

variable {s : σ} {root : TermId} {filter : TypeFilter} {cap depth : Nat} {met es : List Edge}
  {e : Edge} {x y next : Exploration}

/-! ## The search without a cap -/

namespace Whole

theorem length_found (h : Whole s root met x) :
    x.found.length = (reached s root met).card := by
  rw [← h.ids_eq, List.toFinset_card_of_nodup h.connected.nodup, ids, List.length_map]

theorem found_pos (h : Whole s root met x) : 0 < x.found.length := by
  rw [h.length_found]
  exact Finset.card_pos.2 ⟨root, Finset.mem_insert_self _ _⟩

theorem initial {t : Term} (ht : liveRecord s root = some t) (hid : t.id = root) :
    Whole s root [] { found := [(t, 0)] } where
  connected := .initial ht hid
  ids_eq := by rw [← hid]; rfl
  untruncated := rfl

theorem ids_eq_of_meets [LawfulStore σ] (hs : Sound s) (h : Whole s root met x)
    (hmeets : Meets s none depth x e next) : next.ids.toFinset = reached s root (met ++ [e]) := by
  cases hmeets with
  | known htarget =>
      rw [reached_append_of_live (h.connected.live _ htarget), ← h.ids_eq]
      exact (Finset.insert_eq_of_mem (List.mem_toFinset.2 htarget)).symm
  | cutOff _ hfull => cases hfull
  | gone _ _ hgone =>
      rw [reached_append_of_gone hgone, h.ids_eq]
  | @new t _ _ ht =>
      have hids : ((x.discover t (depth + 1)).link e).ids = x.ids ++ [t.id] := List.map_append
      have hlive : (liveRecord s e.target).isSome = true := by rw [ht]; rfl
      rw [hids, id_of_liveRecord hs ht, List.toFinset_append, h.ids_eq,
        reached_append_of_live hlive, Finset.union_comm]
      rfl

theorem meets [LawfulStore σ] (hs : Sound s) (h : Whole s root met x)
    (he : e.Leaves x.found depth) (hmeets : Meets s none depth x e next) :
    Whole s root (met ++ [e]) next where
  connected := h.connected.meets hs he hmeets
  ids_eq := h.ids_eq_of_meets hs hmeets
  untruncated := by
    cases hmeets with
    | known _ => exact h.untruncated
    | cutOff _ hfull => cases hfull
    | gone _ _ _ => exact h.untruncated
    | new _ _ _ => exact h.untruncated

end Whole

/-! ## The two searches at one edge -/

namespace Cut

/-- Two searches that are the same, with at most as many terms as the cap admits. -/
theorem of_room (h : Whole s root met x) (hroom : x.found.length ≤ max cap 1)
    (hgone : ¬ GoneAtCap s root cap met) : Cut s root cap met x x where
  whole := h
  found_eq := (List.take_of_length_le hroom).symm
  links_eq := (List.filter_eq_self.2 fun e he => joins_iff.2 (h.connected.ends e he)).symm
  truncated_iff := by
    rw [h.untruncated]
    constructor
    · intro hfalse; cases hfalse
    · rintro (hmore | hmet)
      · omega
      · exact absurd hmet hgone

theorem mem_whole (h : Cut s root cap met y x) : ∀ p ∈ x.found, p ∈ y.found := by
  intro p hp
  rw [h.found_eq] at hp
  exact List.mem_of_mem_take hp

theorem mem_ids_whole (h : Cut s root cap met y x) {id : TermId} (hid : id ∈ x.ids) :
    id ∈ y.ids := by
  obtain ⟨p, hp, rfl⟩ := List.mem_map.1 hid
  exact List.mem_map_of_mem (h.mem_whole p hp)

/-- Terms beyond the cap are not among those of the search with the cap. -/
theorem notMem_ids_of_mem_drop (h : Cut s root cap met y x) {p : Term × Nat}
    (hp : p ∈ y.found.drop (max cap 1)) : p.1.id ∉ x.ids := by
  have hnodup := h.whole.connected.nodup
  unfold ids at hnodup ⊢
  rw [← List.take_append_drop (max cap 1) y.found, List.map_append, List.nodup_append]
    at hnodup
  rw [h.found_eq]
  intro hid
  exact hnodup.2.2 _ hid _ (List.mem_map_of_mem hp) rfl

theorem isFull_iff (h : Cut s root cap met y x) :
    x.isFull (some cap) = true ↔ cap ≤ y.found.length := by
  have hpos := h.whole.found_pos
  show decide (cap ≤ x.found.length) = true ↔ _
  rw [decide_eq_true_eq, h.found_eq, List.length_take]
  omega

/-- As long as there is room the two searches are the same. -/
theorem eq_of_room (h : Cut s root cap met y x) (hroom : y.found.length < cap) : x = y := by
  have hfound : x.found = y.found := by
    rw [h.found_eq]
    exact List.take_of_length_le (by omega)
  have hlinks : x.links = y.links := by
    rw [h.links_eq]
    refine List.filter_eq_self.2 fun e he => ?_
    rw [joins_iff, ids, hfound]
    exact h.whole.connected.ends e he
  have htruncated : x.truncated = y.truncated := by
    rw [h.whole.untruncated, Bool.eq_false_iff, Ne, h.truncated_iff]
    rintro (hmore | hmet)
    · omega
    · rw [h.whole.length_found] at hroom
      exact not_goneAtCap hroom hmet
  cases x
  cases y
  cases hfound
  cases hlinks
  cases htruncated
  rfl

/-- With room, an edge does the same to both searches. -/
theorem follow_of_room [LawfulStore σ] (hs : Sound s) (h : Cut s root cap met y x)
    (hroom : y.found.length < cap) (he : e.Leaves x.found depth) :
    Cut s root cap (met ++ [e]) (y.follow s none depth e) (x.follow s (some cap) depth e) := by
  have hnotFull : x.isFull (some cap) = false := by
    rw [Bool.eq_false_iff, Ne, h.isFull_iff]
    omega
  obtain rfl := h.eq_of_room hroom
  have hsame : x.follow s (some cap) depth e = x.follow s none depth e := by
    unfold follow
    rw [hnotFull]
    rfl
  rw [hsame]
  have hmeets := meets_follow s none depth x e
  have hlength := hmeets.length_found_le
  refine of_room (h.whole.meets hs he hmeets) (by omega) ?_
  rw [goneAtCap_append_iff]
  rw [h.whole.length_found] at hroom
  rintro (hmet | ⟨-, hcap⟩)
  · exact not_goneAtCap hroom hmet
  · omega

/-- Another edge between terms that the search with the cap has. -/
theorem link [LawfulStore σ] (hs : Sound s) (h : Cut s root cap met y x)
    (he : e.Leaves x.found depth) (htarget : e.target ∈ x.ids) :
    Cut s root cap (met ++ [e]) (y.link e) (x.link e) where
  whole := h.whole.meets hs (he.mono h.mem_whole) (.known (h.mem_ids_whole htarget))
  found_eq := h.found_eq
  links_eq := by
    have hjoins := joins_iff.2 ⟨Connected.source_mem_ids he, htarget⟩
    show x.links ++ [e] = (y.links ++ [e]).filter x.joins
    rw [List.filter_append, List.filter_cons_of_pos hjoins, List.filter_nil, h.links_eq]
  truncated_iff := by
    have hlive := h.whole.connected.live _ (h.mem_ids_whole htarget)
    have hnotGone : liveRecord s e.target ≠ none := by
      intro hgone
      rw [hgone] at hlive
      cases hlive
    rw [goneAtCap_append_iff]
    exact h.truncated_iff.trans (or_congr_right (or_iff_left fun hgone => hnotGone hgone.1).symm)

/-- An edge that does not join terms of the search with the cap, once it has all it
will find. -/
theorem outside [LawfulStore σ] (hs : Sound s) (h : Cut s root cap met y x)
    (hfull : max cap 1 ≤ y.found.length) (he : e.Leaves y.found depth)
    (hmeets : Meets s none depth y e next) (houtside : ¬ x.joins e = true)
    (htruncated : max cap 1 < next.found.length ∨ GoneAtCap s root cap (met ++ [e])) :
    Cut s root cap (met ++ [e]) next { x with truncated := true } where
  whole := h.whole.meets hs he hmeets
  found_eq := by
    obtain ⟨new, hnew⟩ := hmeets.extends.found
    rw [← hnew, List.take_append_of_le_length hfull]
    exact h.found_eq
  links_eq := by
    show x.links = next.links.filter x.joins
    rcases hmeets.links_eq with hlinks | hlinks
    · rw [hlinks, h.links_eq]
    · rw [hlinks, List.filter_append, List.filter_cons_of_neg houtside, List.filter_nil,
        List.append_nil, h.links_eq]
  truncated_iff := iff_of_true rfl htruncated

/-- At the cap, the search with it keeps an edge between its terms and is cut off by
any other. -/
theorem follow_of_full [LawfulStore σ] (hs : Sound s) (h : Cut s root cap met y x)
    (hcap : cap ≤ y.found.length) (he : e.Leaves x.found depth) :
    Cut s root cap (met ++ [e]) (y.follow s none depth e) (x.follow s (some cap) depth e) := by
  have hmeets := meets_follow s none depth y e
  have hpos := h.whole.found_pos
  by_cases hknown : x.knows e.target = true
  · have htarget := knows_iff.1 hknown
    have hx : x.follow s (some cap) depth e = x.link e := by
      unfold follow
      rw [if_pos hknown]
    have hy : y.follow s none depth e = y.link e := by
      unfold follow
      rw [if_pos (knows_iff.2 (h.mem_ids_whole htarget))]
    rw [hx, hy]
    exact h.link hs he htarget
  · have hx : x.follow s (some cap) depth e = { x with truncated := true } := by
      unfold follow
      rw [if_neg hknown, if_pos (h.isFull_iff.2 hcap)]
    have houtside : ¬ x.joins e = true :=
      fun hjoins => hknown (knows_iff.2 (joins_iff.1 hjoins).2)
    rw [hx]
    refine h.outside hs (by omega) (he.mono h.mem_whole) hmeets houtside ?_
    generalize y.follow s none depth e = next at hmeets
    cases hmeets with
    | known htarget =>
        -- Only the search without a cap has the target, so it has more terms by now.
        refine .inl ?_
        show max cap 1 < y.found.length
        by_contra hroom
        have hfound : x.found = y.found := by
          rw [h.found_eq]
          exact List.take_of_length_le (by omega)
        refine hknown (knows_iff.2 ?_)
        rw [ids, hfound]
        exact htarget
    | cutOff _ hfull => cases hfull
    | gone _ _ hgone =>
        rw [goneAtCap_append_iff, ← h.whole.length_found]
        exact .inr (.inr ⟨hgone, hcap⟩)
    | new _ _ _ =>
        refine .inl ?_
        show max cap 1 < (y.found ++ [_]).length
        rw [List.length_append, List.length_singleton]
        omega

theorem follow [LawfulStore σ] (hs : Sound s) (h : Cut s root cap met y x)
    (he : e.Leaves x.found depth) :
    Cut s root cap (met ++ [e]) (y.follow s none depth e) (x.follow s (some cap) depth e) := by
  by_cases hroom : y.found.length < cap
  · exact h.follow_of_room hs hroom he
  · exact h.follow_of_full hs (by omega) he

/-- An edge that leaves a term beyond the cap is met by the search without a cap only. -/
theorem followWhole [LawfulStore σ] (hs : Sound s) (h : Cut s root cap met y x)
    (he : e.Leaves (y.found.drop (max cap 1)) depth) :
    Cut s root cap (met ++ [e]) (y.follow s none depth e) x := by
  have hmeets := meets_follow s none depth y e
  have hlonger := hmeets.extends.found.length_le
  have hleaves : e.Leaves y.found depth := he.mono fun q hq => List.mem_of_mem_drop hq
  obtain ⟨q, hq, hsource, -⟩ := he
  have hmore : max cap 1 < y.found.length := by
    have hpos := List.length_pos_of_mem hq
    rw [List.length_drop] at hpos
    omega
  have houtside : ¬ x.joins e = true := by
    rw [joins_iff, ← hsource]
    exact fun hends => h.notMem_ids_of_mem_drop hq hends.1
  have hcut := h.outside hs (by omega) hleaves hmeets houtside (.inl (by omega))
  -- The flag was set when the first term beyond the cap was passed over.
  have hsame : { x with truncated := true } = x := by
    rw [← h.truncated_iff.2 (.inl hmore)]
  rwa [hsame] at hcut

/-! ## One level, and all of them -/

/-- Edges that leave terms of the search with the cap. -/
theorem pass [LawfulStore σ] (hs : Sound s) (es : List Edge) :
    ∀ (met : List Edge) (y x : Exploration), Cut s root cap met y x →
      (∀ e ∈ es, e.Leaves x.found depth) →
        Cut s root cap (met ++ es) (y.followAll s none depth es)
          (x.followAll s (some cap) depth es) := by
  induction es with
  | nil => intro met y x h _; rwa [List.append_nil]
  | cons e rest ih =>
      intro met y x h hes
      have hfirst := h.follow hs (hes e List.mem_cons_self)
      have hextends := (meets_follow s (some cap) depth x e).extends
      have hrest := ih _ _ _ hfirst fun f hf =>
        (hes f (List.mem_cons_of_mem e hf)).mono fun q hq => hextends.found.subset hq
      rw [List.append_assoc] at hrest
      exact hrest

/-- Edges that leave terms beyond the cap. -/
theorem passWhole [LawfulStore σ] (hs : Sound s) (es : List Edge) :
    ∀ (met : List Edge) (y : Exploration), Cut s root cap met y x →
      (∀ e ∈ es, e.Leaves (y.found.drop (max cap 1)) depth) →
        Cut s root cap (met ++ es) (y.followAll s none depth es) x := by
  induction es with
  | nil => intro met y h _; rwa [List.append_nil]
  | cons e rest ih =>
      intro met y h hes
      have hfirst := h.followWhole hs (hes e List.mem_cons_self)
      have hextends := (meets_follow s none depth y e).extends
      have hrest := ih _ _ hfirst fun f hf =>
        (hes f (List.mem_cons_of_mem e hf)).mono fun q hq => hextends.mem_drop hq
      rw [List.append_assoc] at hrest
      exact hrest

/-- One level. The search with the cap expands those of the latest terms that it has;
the other one expands these first and then the terms beyond the cap. -/
theorem level [LawfulStore σ] (hs : Sound s)
    (hfilter : ∀ type ∈ filter, isTypeName type = true) (h : Cut s root cap met y x)
    {earlier latest : List (Term × Nat)} (hfrontier : Frontier depth earlier latest y) :
    Cut s root cap (met ++ departures s filter (latest.map (·.1.id)))
      (y.followAll s none depth (departures s filter (latest.map (·.1.id))))
      (x.followAll s (some cap) depth (departures s filter
        ((latest.take (max cap 1 - earlier.length)).map (·.1.id)))) := by
  have hkept : ∀ p ∈ latest.take (max cap 1 - earlier.length), p ∈ x.found := by
    intro p hp
    rw [h.found_eq, hfrontier.found_eq, List.take_append]
    exact List.mem_append_right _ hp
  have hbeyond : ∀ p ∈ latest.drop (max cap 1 - earlier.length),
      p ∈ y.found.drop (max cap 1) := by
    intro p hp
    rw [hfrontier.found_eq, List.drop_append]
    exact List.mem_append_right _ hp
  have hdepartures : departures s filter (latest.map (·.1.id)) =
      departures s filter ((latest.take (max cap 1 - earlier.length)).map (·.1.id)) ++
        departures s filter ((latest.drop (max cap 1 - earlier.length)).map (·.1.id)) := by
    unfold departures
    rw [← List.flatMap_append, ← List.map_append, List.take_append_drop]
  have hwhole := h.whole.connected
  have hpass := pass hs _ met y x h fun e he =>
    (hwhole.leaves_of_mem_departures hs hfilter
      (fun p hp => hfrontier.of_mem_latest p (List.mem_of_mem_take hp)) he).mono hkept
  have hextends := followAll_extends s none depth (departures s filter
    ((latest.take (max cap 1 - earlier.length)).map (·.1.id))) y
  have hall := passWhole hs _ _ _ hpass fun e he =>
    (hwhole.leaves_of_mem_departures hs hfilter
      (fun p hp => hfrontier.of_mem_latest p (List.mem_of_mem_drop hp)) he).mono
        fun p hp => hextends.mem_drop (hbeyond p hp)
  rw [List.append_assoc, ← hdepartures] at hall
  unfold followAll at hall ⊢
  rwa [← List.foldl_append, ← hdepartures] at hall

/-- Both searches to their ends, by induction on how many levels are left. -/
theorem search [LawfulStore σ] (hs : Sound s)
    (hfilter : ∀ type ∈ filter, isTypeName type = true) (levels : Nat) :
    ∀ (depth : Nat) (earlier latest : List (Term × Nat)) (y x : Exploration),
      Frontier depth earlier latest y →
      Cut s root cap (departures s filter (earlier.map (·.1.id))) y x →
        ∃ expanded rest,
          Frontier (depth + levels) expanded rest
            (Exploration.search s filter none levels depth (latest.map (·.1.id)) y) ∧
          Cut s root cap (departures s filter (expanded.map (·.1.id)))
            (Exploration.search s filter none levels depth (latest.map (·.1.id)) y)
            (Exploration.search s filter (some cap) levels depth
              ((latest.take (max cap 1 - earlier.length)).map (·.1.id)) x) := by
  induction levels with
  | zero => intro depth earlier latest y x hfrontier h; exact ⟨earlier, latest, hfrontier, h⟩
  | succ levels ih =>
      intro depth earlier latest y x hfrontier h
      have hlevel := h.level hs hfilter hfrontier
      obtain ⟨new, hnext, hbeyond⟩ := hfrontier.pass s none
        (departures s filter (latest.map (·.1.id)))
      have hmet : departures s filter (earlier.map (·.1.id)) ++
          departures s filter (latest.map (·.1.id)) =
            departures s filter (y.found.map (·.1.id)) := by
        unfold departures
        rw [hfrontier.found_eq, List.map_append, List.flatMap_append]
      rw [hmet] at hlevel
      have hbeyondCut : x.beyond (x.followAll s (some cap) depth (departures s filter
          ((latest.take (max cap 1 - earlier.length)).map (·.1.id)))) =
            (new.take (max cap 1 - y.found.length)).map (·.1.id) := by
        unfold beyond
        rw [hlevel.found_eq, hnext.found_eq, List.take_append, ← h.found_eq, List.drop_left]
      obtain ⟨expanded, rest, hend⟩ := ih (depth + 1) y.found new _ _ hnext hlevel
      have hdepth : depth + 1 + levels = depth + (levels + 1) := by omega
      rw [hdepth] at hend
      rw [search_succ, search_succ, hbeyond, hbeyondCut]
      exact ⟨expanded, rest, hend⟩

end Cut

/-! ## Neighbourhoods with and without a cap -/

theorem Frontier.met_drawn {earlier latest : List (Term × Nat)}
    (h : Frontier depth earlier latest x) (s : σ) (filter : TypeFilter) (r : Relations)
    (root : TermId) :
    (x.drawn r root depth).met s filter = departures s filter (earlier.map (·.1.id)) := by
  have hnearer := h.filter_found
  unfold Neighbourhood.met departures drawn
  rw [List.filter_map, List.flatMap_map, List.flatMap_map, ← hnearer]
  rfl

theorem cut_search [LawfulStore σ] (hs : Sound s) {t : Term} (ht : liveRecord s root = some t)
    (hfilter : ∀ type ∈ filter, isTypeName type = true) (r : Relations) (maxDepth cap : Nat) :
    let y := search s filter none maxDepth 0 [root] { found := [(t, 0)] }
    let x := search s filter (some cap) maxDepth 0 [root] { found := [(t, 0)] }
    Cut s root cap ((y.drawn r root maxDepth).met s filter) y x := by
  intro y x
  have hid := id_of_liveRecord hs ht
  have hnone : ¬ GoneAtCap s root cap [] := by
    rintro ⟨before, e, hprefix, -⟩
    exact List.append_ne_nil_of_right_ne_nil before (List.cons_ne_nil e [])
      (List.prefix_nil.1 hprefix)
  have hstart : Cut s root cap [] { found := [(t, 0)] } { found := [(t, 0)] } :=
    .of_room (.initial ht hid) (Nat.le_max_right cap 1) hnone
  obtain ⟨expanded, rest, hfrontier, hcut⟩ :=
    Cut.search hs hfilter maxDepth 0 [] [(t, 0)] _ _ (.initial t) hstart
  have hlatest : [(t, 0)].take (max cap 1 - ([] : List (Term × Nat)).length) = [(t, 0)] :=
    List.take_of_length_le (Nat.le_max_right cap 1)
  rw [hlatest, List.map_singleton, hid] at hcut
  rw [List.map_singleton, hid, Nat.zero_add] at hfrontier
  rw [hfrontier.met_drawn s filter r root]
  exact hcut

end Exploration

/-- Unless the filter is refused, the neighbourhood of a live term under a cap has the
first terms of the one without a cap, as many as the cap says but at least the root, at
the same depths; and just those of its edges that join two terms that are kept, in the
same order. -/
theorem neighbourhood_capped (b : Backend) (s : b.State) (hs : Built s) (r : Relations)
    (root : TermId) (maxDepth : Nat) (filter : TypeFilter) (cap : Nat)
    (hroot : (liveRecord s root).isSome = true) :
    r.RefusesFilter s root filter ∨
      ∃ g capped, (r.neighbourhood root maxDepth filter none).run s = (.ok g, s) ∧
        (r.neighbourhood root maxDepth filter (some cap)).run s = (.ok capped, s) ∧
        capped.nodes.map Neighbour.unflagged =
          (g.nodes.map Neighbour.unflagged).take (max cap 1) ∧
        capped.edges = g.edges.filter fun e =>
          capped.contains e.edge.source && capped.contains e.edge.target := by
  have hsound := sound_of_built hs
  obtain ⟨t, ht⟩ := Option.isSome_iff_exists.1 hroot
  refine (r.neighbourhood_cases s filter ht).imp id ?_
  rintro ⟨hfilter, hrun⟩
  have hcut := Exploration.cut_search hsound ht hfilter r maxDepth cap
  refine ⟨_, _, hrun maxDepth none, hrun maxDepth (some cap), ?_, ?_⟩
  · rw [Exploration.unflagged_drawn, Exploration.unflagged_drawn, hcut.found_eq, List.map_take]
  · generalize Exploration.search s filter (some cap) maxDepth 0 [root] { found := [(t, 0)] } = x
      at hcut
    show x.links.map _ = (List.map _ _).filter _
    rw [List.filter_map, hcut.links_eq]
    congr 2
    funext e
    show x.joins e = _
    rw [Function.comp_apply, Edge.edge_drawn, Exploration.contains_drawn,
      Exploration.contains_drawn]
    rfl

/-- Under a cap of one term, cubism is left of its surroundings, and no edge. -/
theorem cubism_kept_under_cap :
    let s := cubismSurroundings .memory
    let r : Relations := { registry := .builtin }
    Built s ∧ (liveRecord s ⟨"cubism"⟩).isSome = true ∧
      ∃ g capped, (r.neighbourhood ⟨"cubism"⟩ 2 ["broader"] none).run s = (.ok g, s) ∧
        (r.neighbourhood ⟨"cubism"⟩ 2 ["broader"] (some 1)).run s = (.ok capped, s) ∧
        capped.nodes.map Neighbour.unflagged = (g.nodes.map Neighbour.unflagged).take 1 ∧
        (capped.edges = g.edges.filter fun e =>
          capped.contains e.edge.source && capped.contains e.edge.target) ∧
        g.outline = ([(⟨"cubism"⟩, 0), (⟨"painting"⟩, 1)], [cubismToPainting], false) ∧
        capped.outline = ([(⟨"cubism"⟩, 0)], [], true) := by
  intro s r
  have hs : Built s := built_cubismSurroundings .memory
  have hroot : (liveRecord s ⟨"cubism"⟩).isSome = true := rfl
  have hfilter : ∀ type ∈ ["broader"], r.registry.contains type = true := by decide +kernel
  obtain ⟨g, capped, hrun, hcapped, hnodes, hedges⟩ :=
    (neighbourhood_capped .memory s hs r ⟨"cubism"⟩ 2 ["broader"] 1
      hroot).resolve_left (Relations.not_refusesFilter hfilter)
  refine ⟨hs, hroot, g, capped, hrun, hcapped, hnodes, hedges, ?_, ?_⟩
  · exact Neighbourhood.outline_of_run hrun (by decide +kernel)
  · exact Neighbourhood.outline_of_run hcapped (by decide +kernel)

/-- Unless the filter is refused, the neighbourhood of a live term without a cap is not
marked as truncated, and the one under a cap is marked exactly if the one without has
more terms or an edge to a term that is gone is met when the cap is reached. -/
theorem truncated_iff_more_or_gone (b : Backend) (s : b.State) (hs : Built s) (r : Relations)
    (root : TermId) (maxDepth : Nat) (filter : TypeFilter) (cap : Nat)
    (hroot : (liveRecord s root).isSome = true) :
    r.RefusesFilter s root filter ∨
      ∃ g capped, (r.neighbourhood root maxDepth filter none).run s = (.ok g, s) ∧
        (r.neighbourhood root maxDepth filter (some cap)).run s = (.ok capped, s) ∧
        g.truncated = false ∧
        (capped.truncated = true ↔
          capped.nodes.length < g.nodes.length ∨ GoneAtCap s root cap (g.met s filter)) := by
  have hsound := sound_of_built hs
  obtain ⟨t, ht⟩ := Option.isSome_iff_exists.1 hroot
  refine (r.neighbourhood_cases s filter ht).imp id ?_
  rintro ⟨hfilter, hrun⟩
  have hcut := Exploration.cut_search hsound ht hfilter r maxDepth cap
  refine ⟨_, _, hrun maxDepth none, hrun maxDepth (some cap), hcut.whole.untruncated, ?_⟩
  refine hcut.truncated_iff.trans (or_congr_left ?_)
  show _ ↔ (List.map _ _).length < (List.map _ _).length
  rw [List.length_map, List.length_map, hcut.found_eq, List.length_take]
  omega

/-- Around cubism an edge leads to a deleted term. Under a cap of two terms, of which there
are no more, it is met after the cap is reached. -/
theorem cubism_truncated_iff :
    let s := cubismSurroundings .ordered
    let r : Relations := { registry := .builtin }
    Built s ∧ (liveRecord s ⟨"cubism"⟩).isSome = true ∧
      ∃ g capped, (r.neighbourhood ⟨"cubism"⟩ 2 [] none).run s = (.ok g, s) ∧
        (r.neighbourhood ⟨"cubism"⟩ 2 [] (some 2)).run s = (.ok capped, s) ∧
        (capped.truncated = true ↔
          capped.nodes.length < g.nodes.length ∨ GoneAtCap s ⟨"cubism"⟩ 2 (g.met s [])) ∧
        g.outline = ([(⟨"cubism"⟩, 0), (⟨"painting"⟩, 1)], [cubismToPainting], false) ∧
        capped.outline = ([(⟨"cubism"⟩, 0), (⟨"painting"⟩, 1)], [cubismToPainting], true) ∧
        GoneAtCap s ⟨"cubism"⟩ 2 (g.met s []) := by
  intro s r
  have hs : Built s := built_cubismSurroundings .ordered
  have hroot : (liveRecord s ⟨"cubism"⟩).isSome = true := by decide +kernel
  have hfilter : ∀ type ∈ ([] : TypeFilter), r.registry.contains type = true := by simp
  obtain ⟨g, capped, hrun, hcapped, -, htruncated⟩ := (truncated_iff_more_or_gone .ordered s hs r
    ⟨"cubism"⟩ 2 [] 2 hroot).resolve_left (Relations.not_refusesFilter hfilter)
  have hg : g.outline = ([(⟨"cubism"⟩, 0), (⟨"painting"⟩, 1)], [cubismToPainting], false) :=
    Neighbourhood.outline_of_run hrun (by decide +kernel)
  have hcut : capped.outline =
      ([(⟨"cubism"⟩, 0), (⟨"painting"⟩, 1)], [cubismToPainting], true) :=
    Neighbourhood.outline_of_run hcapped (by decide +kernel)
  have hsame : g.nodes.map (fun node => (node.id, node.depth)) =
      capped.nodes.map fun node => (node.id, node.depth) :=
    (congrArg Prod.fst hg).trans (congrArg Prod.fst hcut).symm
  have hlength : g.nodes.length = capped.nodes.length := by
    simpa only [List.length_map] using congrArg List.length hsame
  have hmarked : capped.truncated = true := congrArg (·.2.2) hcut
  refine ⟨hs, hroot, g, capped, hrun, hcapped, htruncated, hg, hcut, ?_⟩
  exact (htruncated.1 hmarked).resolve_left (by omega)

/-- The only edge leads to a deleted term. Under a cap of one term the neighbourhood is
marked as truncated, and without a cap it has no more terms. -/
theorem truncated_by_deleted_target :
    let s := cubismSurroundings .memory
    let r : Relations := { registry := .builtin }
    Built s ∧ (liveRecord s ⟨"cubism"⟩).isSome = true ∧
      ∃ g capped, (r.neighbourhood ⟨"cubism"⟩ 1 ["seeAlso"] none).run s = (.ok g, s) ∧
        (r.neighbourhood ⟨"cubism"⟩ 1 ["seeAlso"] (some 1)).run s = (.ok capped, s) ∧
        ¬ (capped.truncated = true ↔ capped.nodes.length < g.nodes.length) := by
  intro s r
  have hs : Built s := built_cubismSurroundings .memory
  have hfilter : ∀ type ∈ ["seeAlso"], r.registry.contains type = true := by decide +kernel
  have ht : liveRecord s ⟨"cubism"⟩ =
      some (.topLevel ⟨"cubism"⟩ { id := ⟨"art"⟩, name := "Art" } "Cubism") := rfl
  refine ⟨hs, rfl, _, _, r.neighbourhood_run s 1 none ht hfilter,
    r.neighbourhood_run s 1 (some 1) ht hfilter, ?_⟩
  decide +kernel

end Thesaurus
