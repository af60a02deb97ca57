import Thesaurus.Proofs.Neighbourhood.Connected
import Thesaurus.Proofs.Store.Noting

/-!
# The loop behind a neighbourhood

A search that goes level by level does what a loop over a queue does. The loop takes the
first entry of its queue, asks for the edges that leave the term, and lets each live
term that it discovers enter the queue with the next depth. It has no other bound than
the largest depth, which may be the largest machine number; depths that run over that
number begin again with zero.

The loop ends, since what it goes through is what the search finds: its states are the
stages of the search, with a count of the terms that have been served. Whether a term
has entered the queue decides whether it enters once more, so there are no more turns
than live terms.

## Main definitions

* `Loop`: a loop over a queue, with all that ever entered it.
* `Relations.turn`: one turn of the loop.
* `Relations.LoopEnds`: a loop that ends in a last state.

## Main results

* `Relations.neighbourhood_asks`: what a request asks a store that keeps notes.
* `Relations.LoopEnds.search`: the loop goes through the stages of a search.
* `neighbourhood_loop_ends`: how the loop ends, and what it costs.
-/

namespace Thesaurus

open Store LawfulStore

/-! ## The loop -/

/-- A loop over a queue. -/
structure Loop where
  /-- What ever entered the queue, in its order: terms with their depths. -/
  entered : List (TermId × Nat)
  /-- How many entries have left the queue. -/
  served : Nat := 0
  /-- What the loop has found. -/
  exploration : Exploration

namespace Loop

/-- The entries that have not left yet. -/
def queue (l : Loop) : List (TermId × Nat) := l.entered.drop l.served

/-- Whether a term has ever entered the queue. -/
def visited (l : Loop) (id : TermId) : Bool := l.entered.any (·.1 == id)

/-- The loop before its first turn. -/
def start (root : TermId) (t : Term) : Loop :=
  { entered := [(root, 0)], exploration := { found := [(t, 0)] } }

end Loop

namespace Relations

section Turns

variable {σ : Type} [Store σ]

/-- Meets one edge that leaves a term of the given depth. Depths are numbers below
`size`, and begin again with zero when they run over. -/
def meet (r : Relations) (size : Nat) (cap : Option Nat) (depth : Nat) (l : Loop) (e : Edge) :
    RelationM σ Loop := do
  let x := l.exploration
  if l.visited e.target then return { l with exploration := x.link e }
  else if x.isFull cap then return { l with exploration := { x with truncated := true } }
  else
    match ← r.liveTerm? e.target with
    | some t =>
      let next := (depth + 1) % size
      return { l with
        entered := l.entered ++ [(e.target, next)], exploration := (x.discover t next).link e }
    | none => return l

/-- Takes an entry out of the queue, and expands its term unless it has the largest
depth. -/
def turn (r : Relations) (size maxDepth : Nat) (filter : TypeFilter) (cap : Option Nat)
    (l : Loop) (entry : TermId × Nat) : RelationM σ Loop := do
  let l := { l with served := l.served + 1 }
  if maxDepth ≤ entry.2 then return l
  else do
    let edges ← r.call (Store.edgesFrom entry.1 filter)
    edges.foldlM (r.meet size cap entry.2) l

/-- From a loop and a state of the store, turn after turn leads to a loop with an empty
queue and to another state. -/
inductive LoopEnds (r : Relations) (size maxDepth : Nat) (filter : TypeFilter)
    (cap : Option Nat) : Loop → σ → Loop → σ → Prop
  | done {l : Loop} {s : σ} (hempty : l.queue = []) : LoopEnds r size maxDepth filter cap l s l s
  | turn {l next last : Loop} {s s' s'' : σ} {entry : TermId × Nat} {rest : List (TermId × Nat)}
      (hqueue : l.queue = entry :: rest)
      (hturn : (r.turn size maxDepth filter cap l entry).run s = (.ok next, s'))
      (hrest : LoopEnds r size maxDepth filter cap next s' last s'') :
      LoopEnds r size maxDepth filter cap l s last s''

end Turns

end Relations

/-! ## What is due -/

namespace Exploration

/-- The terms found beyond the first so many, as far as their edges are to be asked for. -/
def due (x : Exploration) (maxDepth served : Nat) : List TermId :=
  ((x.found.drop served).filter fun p => p.2 < maxDepth).map (·.1.id)

variable {depth maxDepth : Nat} {earlier latest : List (Term × Nat)} {x final : Exploration}

/-- No term at the largest depth is due. -/
theorem Frontier.due_last (h : Frontier maxDepth earlier latest x) :
    x.due maxDepth earlier.length = [] := by
  unfold due
  rw [h.found_eq, List.drop_left, List.map_eq_nil_iff, List.filter_eq_nil_iff]
  intro p hp
  rw [h.latest_eq p hp, decide_eq_true_iff]
  exact Nat.lt_irrefl maxDepth

/-- The terms of a level are due before those that are found later. -/
theorem Frontier.due_level (h : Frontier depth earlier latest x) (hdepth : depth < maxDepth)
    (hextends : Extends x final) :
    final.due maxDepth earlier.length =
      latest.map (·.1.id) ++ final.due maxDepth x.found.length := by
  obtain ⟨later, hlater⟩ := hextends.found
  have hlatest : latest.filter (fun p => decide (p.2 < maxDepth)) = latest := by
    refine List.filter_eq_self.2 fun p hp => ?_
    rw [h.latest_eq p hp]
    exact decide_eq_true hdepth
  have hdrop : final.found.drop earlier.length = latest ++ final.found.drop x.found.length := by
    rw [← hlater, List.drop_left, h.found_eq, List.append_assoc, List.drop_left]
  unfold due
  rw [hdrop, List.filter_append, List.map_append, hlatest]

end Exploration

/-! ## What a request asks for -/

namespace Relations

open Exploration

variable {σ : Type} [EditableStore σ] [LawfulStore σ] (r : Relations) (filter : TypeFilter)
  (cap : Option Nat)

theorem expandTerm_asks (u : Noting σ) (depth : Nat) (x : Exploration) (id : TermId) :
    (r.expandTerm filter cap depth x id).run u =
      (.ok (x.followAll u.store cap depth (leaving u.store id filter)), u.note [id]) := by
  unfold expandTerm
  rw [run_bind_ok (r.call_run (Noting.edgesFrom_run u id filter))]
  refine run_foldlM_ok _ (fun y e _ => ?_) x
  exact r.followEdge_of_lookups (Noting.liveTerm?_run r (u.note [id])) cap depth y e

theorem expandLevel_asks (depth : Nat) (level : List TermId) :
    ∀ (u : Noting σ) (x : Exploration), (level.foldlM (r.expandTerm filter cap depth) x).run u =
      (.ok (x.followAll u.store cap depth (departures u.store filter level)), u.note level) := by
  induction level with
  | nil => intro u x; rw [List.foldlM_nil, run_pure, Noting.note_nil]; rfl
  | cons id rest ih =>
      intro u x
      rw [List.foldlM_cons, run_bind_ok (r.expandTerm_asks filter cap u depth x id), ih,
        Noting.note_note]
      unfold followAll departures
      rw [List.flatMap_cons, List.foldl_append]
      rfl

/-- A search asks for the edges of what it finds, as far as it is due. -/
theorem explore_asks (levels : Nat) :
    ∀ (depth : Nat) (earlier latest : List (Term × Nat)) (x : Exploration) (u : Noting σ),
      Frontier depth earlier latest x →
        (r.explore filter cap levels depth (latest.map (·.1.id)) x).run u =
          let final := search u.store filter cap levels depth (latest.map (·.1.id)) x
          (.ok final, u.note (final.due (depth + levels) earlier.length)) := by
  induction levels with
  | zero =>
      intro depth earlier latest x u h
      show (Except.ok x, u) = (Except.ok x, u.note (x.due depth earlier.length))
      rw [h.due_last, Noting.note_nil]
  | succ levels ih =>
      intro depth earlier latest x u h
      have hdepth : depth + 1 + levels = depth + (levels + 1) := by omega
      obtain ⟨new, hnext, hbeyond⟩ := h.pass u.store cap
        (departures u.store filter (latest.map (·.1.id)))
      have hlt : depth < depth + (levels + 1) := by omega
      have hdue := h.due_level hlt
        (search_extends u.store filter cap (levels + 1) depth (latest.map (·.1.id)) x)
      show _ = (Except.ok _, u.note _)
      rw [hdue]
      unfold explore
      cases latest with
      | nil =>
          have hnone : x.due (depth + (levels + 1)) x.found.length = [] := by
            unfold due
            rw [List.drop_length]
            rfl
          rw [List.map_nil, search_nil, hnone, List.append_nil, Noting.note_nil]
          rfl
      | cons p rest =>
          have hsome : ¬ ((p :: rest).map (·.1.id)).isEmpty = true := by simp
          rw [if_neg hsome, run_bind_ok (r.expandLevel_asks filter cap depth _ u x)]
          have hlater := ih (depth + 1) x.found new _ (u.note ((p :: rest).map (·.1.id))) hnext
          rw [← hbeyond, hdepth] at hlater
          refine hlater.trans ?_
          show (_, Noting.note (Noting.note u _) _) = _
          rw [Noting.note_note]
          rfl

/-- A request whose filter is registered, for a live root, asks for the edges of what it
finds nearer than its depth. -/
theorem neighbourhood_asks (u : Noting σ) {root : TermId} {t : Term} (maxDepth : Nat)
    (ht : liveRecord u.store root = some t) (hid : t.id = root)
    (hfilter : ∀ type ∈ filter, r.registry.contains type = true) :
    (r.neighbourhood root maxDepth filter cap).run u =
      let final := search u.store filter cap maxDepth 0 [root] { found := [(t, 0)] }
      (.ok (final.drawn r root maxDepth), u.note (final.due maxDepth 0)) := by
  have hexplore := r.explore_asks filter cap maxDepth 0 [] [(t, 0)] _ u (.initial t)
  rw [List.map_singleton, hid, Nat.zero_add] at hexplore
  exact r.neighbourhood_of_explore maxDepth cap (by rw [Noting.liveTerm?_run, ht]) hfilter hexplore

/-- Any other request is refused for the same reason with notes and without, and asks
for no edges. -/
theorem neighbourhood_refused (s : σ) {root : TermId} (maxDepth : Nat)
    (h : ¬ ((liveRecord s root).isSome = true ∧
      ∀ type ∈ filter, r.registry.contains type = true)) :
    ∃ error, (r.neighbourhood root maxDepth filter cap).run s = (.error error, s) ∧
      ∀ u : Noting σ, u.store = s →
        (r.neighbourhood root maxDepth filter cap).run u = (.error error, u) := by
  cases hunknown : filter.find? (fun type => !r.registry.contains type) with
  | some unknown =>
      exact ⟨_, r.neighbourhood_of_unknown s root maxDepth cap hunknown,
        fun u _ => r.neighbourhood_of_unknown u root maxDepth cap hunknown⟩
  | none =>
      have hfilter := Registry.find?_not_contains_eq_none_iff.1 hunknown
      have hroot : liveRecord s root = none := by
        rw [← Option.not_isSome_iff_eq_none]
        exact fun hlive => h ⟨hlive, hfilter⟩
      refine ⟨_, r.neighbourhood_of_not_live s maxDepth cap hroot hfilter, ?_⟩
      rintro u rfl
      exact r.neighbourhood_of_gone maxDepth cap (by rw [Noting.liveTerm?_run, hroot]) hfilter

end Relations

/-! ## What the loop goes through -/

/-- The terms found, as they enter the queue. -/
def Exploration.entries (x : Exploration) : List (TermId × Nat) :=
  x.found.map fun p => (p.1.id, p.2)

/-- The loop at a stage of the search, when so many entries have been served. -/
def Loop.of (x : Exploration) (served : Nat) : Loop :=
  { entered := x.entries, served := served, exploration := x }

theorem Loop.visited_of (x : Exploration) (served : Nat) (id : TermId) :
    (Loop.of x served).visited id = x.knows id := List.any_map

theorem Loop.exploration_of (x : Exploration) (served : Nat) :
    (Loop.of x served).exploration = x := rfl

theorem Loop.queue_of {x : Exploration} {done : List (Term × Nat)} {p : Term × Nat}
    {rest : List (Term × Nat)} (h : x.found = done ++ p :: rest) :
    (Loop.of x done.length).queue = (p.1.id, p.2) :: rest.map fun p => (p.1.id, p.2) := by
  show (x.found.map _).drop done.length = _
  rw [h, List.map_append, List.drop_left' (List.length_map _), List.map_cons]

namespace Relations

open Exploration

variable {σ : Type} [EditableStore σ] [LawfulStore σ] (r : Relations) {size maxDepth : Nat}
  (filter : TypeFilter) (cap : Option Nat) {depth : Nat} {s : σ}

theorem meet_run {u : Noting σ} (hs : Sound u.store) (hsize : depth + 1 < size) (served : Nat)
    (x : Exploration) (e : Edge) :
    (r.meet size cap depth (Loop.of x served) e).run u =
      (.ok (Loop.of (x.follow u.store cap depth e) served), u) := by
  unfold meet follow
  rw [Loop.visited_of, Loop.exploration_of]
  by_cases hknown : x.knows e.target = true
  · rw [if_pos hknown, if_pos hknown]
    rfl
  · rw [if_neg hknown, if_neg hknown]
    by_cases hfull : x.isFull cap = true
    · rw [if_pos hfull, if_pos hfull]
      rfl
    · rw [if_neg hfull, if_neg hfull, run_bind_ok (Noting.liveTerm?_run r u e.target)]
      cases ht : liveRecord u.store e.target with
      | none => rfl
      | some t =>
          -- The queue holds the identity that was asked for, the search that of the record.
          have hentries : ((x.discover t (depth + 1)).link e).entries =
              x.entries ++ [(e.target, depth + 1)] := by
            rw [← id_of_liveRecord hs ht]
            exact List.map_append
          show (Except.ok (Loop.mk (x.entries ++ [(e.target, (depth + 1) % size)]) served
            ((x.discover t ((depth + 1) % size)).link e)), u) = _
          rw [Nat.mod_eq_of_lt hsize, ← hentries]
          rfl

theorem meetAll_run {u : Noting σ} (hs : Sound u.store) (hsize : depth + 1 < size) (served : Nat)
    (es : List Edge) : ∀ x : Exploration,
      (es.foldlM (r.meet size cap depth) (Loop.of x served)).run u =
        (.ok (Loop.of (x.followAll u.store cap depth es) served), u) := by
  induction es with
  | nil => intro x; rw [List.foldlM_nil, run_pure]; rfl
  | cons e rest ih =>
      intro x
      rw [List.foldlM_cons, run_bind_ok (r.meet_run cap hs hsize served x e)]
      exact ih _

/-- A turn for a term below the largest depth expands the term. -/
theorem turn_run {u : Noting σ} (entry : TermId × Nat) (hs : Sound u.store)
    (hsize : entry.2 + 1 < size) (hdepth : entry.2 < maxDepth) (served : Nat) (x : Exploration) :
    (r.turn size maxDepth filter cap (Loop.of x served) entry).run u =
      (.ok (Loop.of (x.followAll u.store cap entry.2 (leaving u.store entry.1 filter))
        (served + 1)), u.note [entry.1]) := by
  unfold turn
  rw [if_neg (Nat.not_le_of_lt hdepth),
    run_bind_ok (r.call_run (Noting.edgesFrom_run u entry.1 filter))]
  exact r.meetAll_run cap (u := u.note [entry.1]) hs hsize (served + 1) _ x

omit [LawfulStore σ] in
/-- A turn for a term at the largest depth only takes it out of the queue. -/
theorem turn_run_last {entry : TermId × Nat} (hdepth : entry.2 = maxDepth) (u : Noting σ)
    (served : Nat) (x : Exploration) :
    (r.turn size maxDepth filter cap (Loop.of x served) entry).run u =
      (.ok (Loop.of x (served + 1)), u) := by
  unfold turn
  rw [if_pos (Nat.le_of_eq hdepth.symm)]
  rfl

namespace LoopEnds

/-- The turns of a level below the largest depth, by induction on the terms that are
left of it. What they discover enters the queue behind them. -/
theorem level {last : Loop} {u' : Noting σ} (hsize : depth + 1 < size) (hdepth : depth < maxDepth)
    (rest : List (Term × Nat)) :
    ∀ (done later : List (Term × Nat)) (x : Exploration) (u : Noting σ), Sound u.store →
      x.found = done ++ (rest ++ later) → (∀ p ∈ rest, p.2 = depth) →
      r.LoopEnds size maxDepth filter cap
        (Loop.of (x.followAll u.store cap depth (departures u.store filter (rest.map (·.1.id))))
          (done.length + rest.length))
        (u.note (rest.map (·.1.id))) last u' →
      r.LoopEnds size maxDepth filter cap (Loop.of x done.length) u last u' := by
  induction rest with
  | nil =>
      intro done later x u _ _ _ hrest
      rw [List.map_nil, Noting.note_nil] at hrest
      exact hrest
  | cons p rest ih =>
      intro done later x u hs hfound hlevel hrest
      obtain rfl : p.2 = depth := hlevel p List.mem_cons_self
      obtain ⟨new, hnew, -⟩ := exists_new_followAll u.store cap p.2
        (leaving u.store p.1.id filter) x
      refine .turn (Loop.queue_of hfound)
        (r.turn_run filter cap (p.1.id, p.2) hs hsize hdepth done.length x) ?_
      have hnext := ih (done ++ [p]) (later ++ new) _ (u.note [p.1.id]) hs
        (by rw [hnew, hfound]; simp only [List.append_assoc, List.cons_append, List.nil_append])
        (fun q hq => hlevel q (List.mem_cons_of_mem p hq))
      rw [List.length_append, List.length_singleton] at hnext
      refine hnext ?_
      rw [Noting.note_note, Nat.add_assoc, Nat.add_comm 1]
      unfold followAll departures at hrest ⊢
      rw [List.map_cons, List.flatMap_cons, List.foldl_append] at hrest
      exact hrest

omit [LawfulStore σ] in
/-- The turns of the last level. -/
theorem last_level {x : Exploration} (u : Noting σ) (rest : List (Term × Nat)) :
    ∀ done : List (Term × Nat), x.found = done ++ rest → (∀ p ∈ rest, p.2 = maxDepth) →
      r.LoopEnds size maxDepth filter cap (Loop.of x done.length) u
        (Loop.of x x.found.length) u := by
  induction rest with
  | nil =>
      intro done hfound _
      rw [hfound, List.append_nil]
      refine .done ?_
      show (x.found.map _).drop done.length = []
      rw [hfound, List.append_nil, ← List.map_drop, List.drop_length, List.map_nil]
  | cons p rest ih =>
      intro done hfound hlevel
      refine .turn (Loop.queue_of hfound)
        (r.turn_run_last filter cap (hlevel p List.mem_cons_self) u done.length x) ?_
      have hnext := ih (done ++ [p]) (by rw [hfound, List.append_assoc]; rfl)
        (fun q hq => hlevel q (List.mem_cons_of_mem p hq))
      rwa [List.length_append, List.length_singleton] at hnext

/-- The loop goes through the stages of a search and ends, by induction on the levels
that are left. -/
theorem search (hsize : maxDepth < size) (levels : Nat) :
    ∀ (depth : Nat) (earlier latest : List (Term × Nat)) (x : Exploration) (u : Noting σ),
      Sound u.store → Frontier depth earlier latest x → depth + levels = maxDepth →
        let final := Exploration.search u.store filter cap levels depth (latest.map (·.1.id)) x
        r.LoopEnds size maxDepth filter cap (Loop.of x earlier.length) u
          (Loop.of final final.found.length) (u.note (final.due maxDepth earlier.length)) := by
  induction levels with
  | zero =>
      intro depth earlier latest x u _ h hdepth
      obtain rfl : depth = maxDepth := hdepth
      show r.LoopEnds size depth filter cap _ u (Loop.of x x.found.length)
        (u.note (x.due depth earlier.length))
      rw [h.due_last, Noting.note_nil]
      exact last_level r filter cap u latest earlier h.found_eq h.latest_eq
  | succ levels ih =>
      intro depth earlier latest x u hs h hdepth final
      have hlt : depth < maxDepth := by omega
      obtain ⟨new, hnext, hbeyond⟩ := h.pass u.store cap
        (departures u.store filter (latest.map (·.1.id)))
      have hdue := h.due_level hlt
        (search_extends u.store filter cap (levels + 1) depth (latest.map (·.1.id)) x)
      have hlater := ih (depth + 1) x.found new _ (u.note (latest.map (·.1.id))) hs hnext (by omega)
      rw [← hbeyond] at hlater
      have hrest : r.LoopEnds size maxDepth filter cap (Loop.of _ x.found.length) _
          (Loop.of final final.found.length)
          ((u.note (latest.map (·.1.id))).note (final.due maxDepth x.found.length)) := hlater
      rw [Noting.note_note, ← hdue] at hrest
      refine level r filter cap (by omega) hlt latest earlier [] x u hs ?_ h.latest_eq ?_
      · rw [List.append_nil, h.found_eq]
      · rw [← List.length_append, ← h.found_eq]
        exact hrest

end LoopEnds

end Relations

/-! ## What the loop costs -/

namespace Exploration

variable (x : Exploration) (maxDepth : Nat)

theorem ids_entries : x.entries.map (·.1) = x.ids := List.map_map

theorem entries_drawn (r : Relations) (root : TermId) :
    (x.drawn r root maxDepth).nodes.map (fun node => (node.id, node.depth)) = x.entries :=
  List.map_map

theorem due_sublist (served : Nat) : (x.due maxDepth served).Sublist x.ids :=
  (List.filter_sublist.trans (List.drop_sublist served x.found)).map _

theorem due_zero :
    x.due maxDepth 0 = (x.entries.filter fun entry => entry.2 < maxDepth).map (·.1) := by
  unfold due entries
  rw [List.drop_zero, List.filter_map, List.map_map]
  rfl

/-- A term that is due lies below the largest depth, since it entered the queue once. -/
theorem lt_of_mem_due {x : Exploration} {maxDepth : Nat} (hnodup : x.ids.Nodup)
    {entry : TermId × Nat} (hentry : entry ∈ x.entries) (hdue : entry.1 ∈ x.due maxDepth 0) :
    entry.2 < maxDepth := by
  rw [due_zero] at hdue
  obtain ⟨other, hother, hid⟩ := List.mem_map.1 hdue
  obtain ⟨hmem, hdepth⟩ := List.mem_filter.1 hother
  rw [← ids_entries] at hnodup
  obtain rfl := List.inj_on_of_nodup_map hnodup hmem hentry hid
  exact of_decide_eq_true hdepth

end Exploration

/-- What an accepted request has found when it ends is what the loop has found when it
ends, and both have asked for the same edges. -/
theorem Relations.loopEnds_of_accepted {σ : Type} [EditableStore σ] [LawfulStore σ]
    (r : Relations) {s : σ} (hs : Sound s) {root : TermId} {t : Term} {size maxDepth : Nat}
    (hsize : maxDepth < size) {filter : TypeFilter} (cap : Option Nat)
    (ht : liveRecord s root = some t)
    (hfilter : ∀ type ∈ filter, r.registry.contains type = true) :
    ∃ x : Exploration,
      (r.neighbourhood root maxDepth filter cap).run s = (.ok (x.drawn r root maxDepth), s) ∧
      (r.neighbourhood root maxDepth filter cap).run (.fresh s) =
        (.ok (x.drawn r root maxDepth), (Noting.fresh s).note (x.due maxDepth 0)) ∧
      r.LoopEnds size maxDepth filter cap (.start root t) (.fresh s) (.of x x.found.length)
        ((Noting.fresh s).note (x.due maxDepth 0)) ∧
      x.ids.Nodup ∧ (∀ id ∈ x.ids, (liveRecord s id).isSome = true) ∧
      ∀ p ∈ x.found, p.2 ≤ maxDepth := by
  have hid := id_of_liveRecord hs ht
  have hnames : ∀ type ∈ filter, isTypeName type = true :=
    fun type htype => Registry.isTypeName_of_contains (hfilter type htype)
  have hinitial := Exploration.Frontier.initial t
  have hloop := LoopEnds.search r filter cap hsize maxDepth 0 [] [(t, 0)] _ (.fresh s) hs hinitial
    (Nat.zero_add maxDepth)
  have hconnected := Exploration.Connected.search hs hnames cap maxDepth 0 [] [(t, 0)] _
    hinitial (.initial ht hid)
  obtain ⟨nearer, last, hfrontier⟩ := hinitial.search s filter cap maxDepth
  rw [List.map_singleton, hid] at hloop hconnected hfrontier
  rw [Nat.zero_add] at hfrontier
  have hstart : Loop.of { found := [(t, 0)] } 0 = .start root t := by rw [← hid]; rfl
  refine ⟨_, r.neighbourhood_run s maxDepth cap ht hfilter,
    r.neighbourhood_asks filter cap (.fresh s) maxDepth ht hid hfilter, hstart ▸ hloop,
    hconnected.nodup, hconnected.live, hfrontier.le_of_mem_found⟩

/-- For every root, filter and cap and every depth that a machine number can tell, a
request for a neighbourhood asks for the edges of live terms only, and of each at most
once. If the root is not live or the filter not registered, the request is refused and
asks for none. Otherwise the answer is what the loop over a queue has found when it
ends. No term has entered the queue twice; the depths in the queue are those of the
neighbourhood, so none has run over; the terms that were expanded, which are those below
the largest depth, are those whose edges were asked for; and there were no more turns
than live terms. -/
theorem neighbourhood_loop_ends (b : Backend) (s : b.State) (hs : Built s) (r : Relations)
    (root : TermId) {size maxDepth : Nat} (hsize : maxDepth < size) (filter : TypeFilter)
    (cap : Option Nat) :
    ∃ answer asked,
      (r.neighbourhood root maxDepth filter cap).run s = (answer, s) ∧
      (r.neighbourhood root maxDepth filter cap).run (.fresh s) =
        (answer, (Noting.fresh s).note asked) ∧
      asked.Nodup ∧ (∀ id ∈ asked, (liveRecord s id).isSome = true) ∧
      (¬ ((liveRecord s root).isSome = true ∧ ∀ type ∈ filter, r.registry.contains type = true) →
        asked = [] ∧ ∃ error, answer = .error error) ∧
      ∀ t, liveRecord s root = some t → (∀ type ∈ filter, r.registry.contains type = true) →
        ∃ g l, answer = .ok g ∧
          r.LoopEnds size maxDepth filter cap (.start root t) (.fresh s) l
            ((Noting.fresh s).note asked) ∧
          g = l.exploration.drawn r root maxDepth ∧
          l.entered = g.nodes.map (fun node => (node.id, node.depth)) ∧
          (l.entered.map (·.1)).Nodup ∧
          (∀ entry ∈ l.entered, entry.2 ≤ maxDepth) ∧
          (∀ entry ∈ l.entered, entry.1 ∈ asked → entry.2 + 1 ≤ maxDepth) ∧
          asked = (l.entered.filter fun entry => entry.2 < maxDepth).map (·.1) ∧
          l.served = l.entered.length ∧
          ∃ live : Finset TermId, (∀ id, id ∈ live ↔ (liveRecord s id).isSome = true) ∧
            l.served ≤ live.card := by
  by_cases haccepted : (liveRecord s root).isSome = true ∧
      ∀ type ∈ filter, r.registry.contains type = true
  · obtain ⟨t, ht⟩ := Option.isSome_iff_exists.1 haccepted.1
    obtain ⟨x, hplain, hasks, hloop, hnodup, hlive, hdepth⟩ :=
      r.loopEnds_of_accepted (sound_of_built hs) hsize cap ht haccepted.2
    have hdue := x.due_sublist maxDepth 0
    refine ⟨_, x.due maxDepth 0, hplain, hasks, hdue.nodup hnodup,
      fun id hid => hlive id (hdue.subset hid), fun hrefused => absurd haccepted hrefused, ?_⟩
    intro u hu _
    obtain rfl : t = u := Option.some.inj (ht.symm.trans hu)
    obtain ⟨live, hmem⟩ := b.exists_live s
    refine ⟨_, _, rfl, hloop, rfl, (x.entries_drawn maxDepth r root).symm, ?_, ?_, ?_,
      x.due_zero maxDepth, (List.length_map _).symm, live, hmem, ?_⟩
    · show (x.entries.map (·.1)).Nodup
      rw [x.ids_entries]
      exact hnodup
    · intro entry hentry
      obtain ⟨p, hp, rfl⟩ := List.mem_map.1 hentry
      exact hdepth p hp
    · exact fun entry hentry hasked => Exploration.lt_of_mem_due hnodup hentry hasked
    · have hsubset : x.ids.toFinset ⊆ live := fun id hid =>
        (hmem id).2 (hlive id (List.mem_toFinset.1 hid))
      calc x.found.length = x.ids.length := (List.length_map _).symm
        _ = x.ids.toFinset.card := (List.toFinset_card_of_nodup hnodup).symm
        _ ≤ live.card := Finset.card_le_card hsubset
  · obtain ⟨error, hplain, hnoting⟩ := r.neighbourhood_refused filter cap s maxDepth haccepted
    refine ⟨_, [], hplain, ?_, List.nodup_nil, ?_, fun _ => ⟨rfl, error, rfl⟩, ?_⟩
    · rw [Noting.note_nil]
      exact hnoting (.fresh s) rfl
    · intro id hid
      cases hid
    · intro t ht hfilter
      exact absurd ⟨by rw [ht]; rfl, hfilter⟩ haccepted

/-- Around cubism, with the largest depth that 64 bits hold, the loop ends. -/
theorem loop_around_cubism_ends :
    let s := cubismSurroundings .memory
    let r : Relations := { registry := .builtin }
    let largest : Nat := 18446744073709551615
    Built s ∧ largest < largest + 1 ∧ ∃ t, liveRecord s ⟨"cubism"⟩ = some t ∧ ∃ answer asked,
      (r.neighbourhood ⟨"cubism"⟩ largest [] none).run (.fresh s) =
        (answer, (Noting.fresh s).note asked) ∧
      asked.Nodup ∧
      ∃ g l, answer = .ok g ∧
        r.LoopEnds (largest + 1) largest [] none (.start ⟨"cubism"⟩ t) (.fresh s) l
          ((Noting.fresh s).note asked) ∧
        (l.entered.map (·.1)).Nodup := by
  intro s r largest
  have hs : Built s := built_cubismSurroundings .memory
  have hsize : largest < largest + 1 := Nat.lt_succ_self largest
  have hroot : (liveRecord s ⟨"cubism"⟩).isSome = true := by decide +kernel
  have hfilter : ∀ type ∈ ([] : TypeFilter), r.registry.contains type = true := by simp
  obtain ⟨t, ht⟩ := Option.isSome_iff_exists.1 hroot
  obtain ⟨answer, asked, -, hasks, hnodup, -, -, haccepted⟩ :=
    neighbourhood_loop_ends .memory s hs r ⟨"cubism"⟩ hsize [] none
  obtain ⟨g, l, hanswer, hloop, -, -, hentered, -⟩ := haccepted t ht hfilter
  exact ⟨hs, hsize, t, ht, answer, asked, hasks, hnodup, g, l, hanswer, hloop, hentered⟩

end Thesaurus
