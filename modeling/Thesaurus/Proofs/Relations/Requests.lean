import Thesaurus.Proofs.Computation
import Thesaurus.Proofs.Pairing
import Thesaurus.Proofs.Store.Lawful
import Thesaurus.Relations

/-!
# What a request about relations does

Each request has a theorem that says how it runs on a lawful store. Looking
requests give what the store shows and leave the state as it is. Adding and
removing either refuse and leave the state as it is, or make one batch of the plan.

## Main definitions

* `Addable`: when a relation may be added.
* `Relations.verdict`: what checking a relation comes to, read off the terms.
* `Healthy`: a state in which every call can be relied on.
* `Relinked`: a state with other edges and the same terms.

## Main results

* `Relations.validate_run`: what is checked before a relation is added.
* `Relations.add_of_addable`, `Relations.add_of_not_addable`: adding.
* `Relations.remove_of_contains`, `Relations.remove_of_not_contains`: removing.
* `Relations.relationsOf_run`: what a term lists.
-/

namespace Thesaurus

open Store LawfulStore

/-! ## Calls -/

namespace Relations

variable {σ : Type} (r : Relations)

theorem call_run {α : Type} {act : StoreM σ α} {s s' : σ} {a : α}
    (h : act.run s = (.ok a, s')) : (r.call act).run s = (.ok a, s') := by
  unfold call
  rw [ExceptT.run_mk]
  simp only [h]

theorem call_run_error {α : Type} {act : StoreM σ α} {s s' : σ} {fault : Fault}
    (h : act.run s = (.error fault, s')) :
    (r.call act).run s = (.error (r.failure fault), s') := by
  unfold call
  rw [ExceptT.run_mk]
  simp only [h]

/-- Under the time limit a call leads to the state that it leads to without. -/
theorem call_state {α : Type} (act : StoreM σ α) (s : σ) :
    ((r.call act).run s).2 = (act.run s).2 := by
  rcases hrun : act.run s with ⟨result, t⟩
  cases result with
  | ok a => rw [r.call_run hrun]
  | error fault => rw [r.call_run_error hrun]

theorem resolveType_run (s : σ) (name : String) :
    (r.resolveType name).run s =
      match r.registry.get? name with
      | some type => (.ok type, s)
      | none => (.error (.invalidType name), s) := by
  unfold resolveType
  cases r.registry.get? name with
  | none => rfl
  | some type => rfl

end Relations

/-! ## When a relation may be added -/

section Checks

variable {σ : Type} [Store σ]

/-- When a relation may be added: its type is registered, its ends are live and
differ, and they share a glossary unless the type may cross. -/
structure Addable (registry : Registry) (s : σ) (e : Edge) : Prop where
  ends : e.source ≠ e.target
  glossaries : ∃ type source target, registry.get? e.type = some type ∧
    liveRecord s e.source = some source ∧ liveRecord s e.target = some target ∧
    (type.crossesGlossaries = true ∨ source.glossary = target.glossary)

theorem known_of_liveRecord {s : σ} {id : TermId} {t : Term} (h : liveRecord s id = some t) :
    Known s id :=
  Option.isSome_iff_exists.2 ⟨t, (liveRecord_eq_some_iff.1 h).1⟩

namespace Addable

variable {registry : Registry} {s : σ} {e f : Edge}

theorem contains (h : Addable registry s e) : registry.contains e.type = true := by
  obtain ⟨type, -, -, htype, -⟩ := h.glossaries
  exact Option.isSome_iff_exists.2 ⟨type, htype⟩

/-- What may be added depends on the terms, whatever edges there are. -/
theorem of_sameTerms {s' : σ} (h : Addable registry s e) (hterms : SameTerms s s') :
    Addable registry s' e := by
  obtain ⟨hends, type, source, target, htype, hsource, htarget, hglossary⟩ := h
  refine ⟨hends, type, source, target, htype, ?_, ?_, hglossary⟩
  · rw [hterms.liveRecord_eq, hsource]
  · rw [hterms.liveRecord_eq, htarget]

/-- Both edges of an addable relation join known terms and have proper types. -/
theorem known_of_mem_plan (h : Addable registry s e) (hf : f ∈ e.plan registry) :
    Known s f.source ∧ Known s f.target ∧ isTypeName f.type = true := by
  have htype := Registry.isTypeName_of_contains (Edge.contains_type_of_mem_plan h.contains hf)
  obtain ⟨-, source, target, -, hsource, htarget, -⟩ := h.glossaries
  rcases Edge.mem_plan.1 hf with rfl | hinverse
  · exact ⟨known_of_liveRecord hsource, known_of_liveRecord htarget, htype⟩
  · obtain ⟨-, hfsource, hftarget⟩ := Edge.inverse?_eq_some_iff.1 hinverse
    rw [hfsource, hftarget]
    exact ⟨known_of_liveRecord htarget, known_of_liveRecord hsource, htype⟩

end Addable

namespace Relations

variable (r : Relations)

/-- What checking a relation comes to: the first thing that is wrong, or its type. -/
def verdict (s : σ) (source target : TermId) (type : String) :
    Except RelationError RelationType :=
  match r.registry.get? type with
  | none => .error (.invalidType type)
  | some type =>
    match liveRecord s source, liveRecord s target with
    | none, _ => .error (.termNotFound source)
    | some _, none => .error (.termNotFound target)
    | some sourceTerm, some targetTerm =>
      if source = target then .error (.selfRelation source)
      else if !type.crossesGlossaries && sourceTerm.glossary ≠ targetTerm.glossary then
        .error (.crossesGlossaries type.name sourceTerm.glossary targetTerm.glossary)
      else .ok type

theorem verdict_of_addable {s : σ} {e : Edge} (h : Addable r.registry s e) :
    ∃ type, r.verdict s e.source e.target e.type = .ok type ∧ type.name = e.type := by
  obtain ⟨type, source, target, htype, hsource, htarget, hglossary⟩ := h.glossaries
  refine ⟨type, ?_, (Registry.mem_of_get? htype).2⟩
  unfold verdict
  simp only [htype, hsource, htarget, if_neg h.ends]
  rw [if_neg]
  rcases hglossary with hcrosses | hsame
  · simp [hcrosses]
  · simp [hsame]

theorem addable_of_verdict {s : σ} {e : Edge} {type : RelationType}
    (h : r.verdict s e.source e.target e.type = .ok type) : Addable r.registry s e := by
  unfold verdict at h
  cases htype : r.registry.get? e.type with
  | none => simp [htype] at h
  | some found =>
      cases hsource : liveRecord s e.source with
      | none => simp [htype, hsource] at h
      | some source =>
          cases htarget : liveRecord s e.target with
          | none => simp [htype, hsource, htarget] at h
          | some target =>
              simp only [htype, hsource, htarget] at h
              by_cases hends : e.source = e.target
              · rw [if_pos hends] at h
                cases h
              · rw [if_neg hends] at h
                refine ⟨hends, found, source, target, htype, hsource, htarget, ?_⟩
                by_cases hglossary : source.glossary = target.glossary
                · exact .inr hglossary
                · refine .inl ?_
                  cases hcrosses : found.crossesGlossaries with
                  | true => rfl
                  | false => simp [hcrosses, hglossary] at h

theorem verdict_of_sameTerms {s s' : σ} (h : SameTerms s s') (source target : TermId)
    (type : String) : r.verdict s' source target type = r.verdict s source target type := by
  unfold verdict
  simp only [h.liveRecord_eq]

theorem requireTerm_of_readable {s : σ} (h : Readable s) (id : TermId) :
    (r.requireTerm id).run s =
      match liveRecord s id with
      | some t => (.ok t, s)
      | none => (.error (.termNotFound id), s) := by
  have hisLive := r.call_run (h.isLive id)
  cases hlive : liveRecord s id with
  | none =>
      rw [hlive] at hisLive
      unfold requireTerm
      rw [run_bind_ok hisLive]
      rfl
  | some t =>
      rw [hlive] at hisLive
      unfold requireTerm
      rw [run_bind_ok hisLive]
      show (r.call (Store.term id) >>= _).run s = _
      rw [run_bind_ok (r.call_run (h.term id)), (liveRecord_eq_some_iff.1 hlive).1]
      rfl

/-- Checking a relation looks at the terms and changes nothing. -/
theorem validate_of_readable {s : σ} (h : Readable s) (source target : TermId) (type : String) :
    (r.validate source target type).run s = (r.verdict s source target type, s) := by
  have hresolve := r.resolveType_run s type
  have hsource := r.requireTerm_of_readable h source
  have htarget := r.requireTerm_of_readable h target
  unfold validate verdict
  cases htype : r.registry.get? type with
  | none =>
      rw [htype] at hresolve
      exact run_bind_error hresolve
  | some found =>
      rw [htype] at hresolve
      rw [run_bind_ok hresolve]
      cases hlive : liveRecord s source with
      | none =>
          rw [hlive] at hsource
          exact run_bind_error hsource
      | some sourceTerm =>
          rw [hlive] at hsource
          rw [run_bind_ok hsource]
          cases hlive' : liveRecord s target with
          | none =>
              rw [hlive'] at htarget
              exact run_bind_error htarget
          | some targetTerm =>
              rw [hlive'] at htarget
              rw [run_bind_ok htarget]
              by_cases hends : source = target
              · simp only [if_pos hends]
                rfl
              · simp only [if_neg hends]
                split
                · rfl
                · rfl

end Relations

/-! ## Exact mutations -/

/-- A mutation leads to these edges, reports how many edges that changed, and
touches nothing else. -/
structure Mutates (s s' : σ) (o : Outcome) (edges : Finset Edge) : Prop where
  links_eq : links s' = edges
  changed_eq : o.changed = (symmDiff (links s) (links s')).card
  sameTerms : SameTerms s s'

/-- A computation that succeeds exactly under a condition, then leads to these
edges, and else leaves the state as it is. -/
structure MutatesExactly (act : RelationM σ Outcome) (s : σ) (condition : Prop)
    (edges : Finset Edge) : Prop where
  succeeds_iff : (∃ o s', act.run s = (.ok o, s')) ↔ condition
  of_ok : ∀ o s', act.run s = (.ok o, s') → Mutates s s' o edges
  of_error : ∀ error s', act.run s = (.error error, s') → s' = s

theorem MutatesExactly.of_runs {act : RelationM σ Outcome} {s : σ} {condition : Prop}
    {edges : Finset Edge}
    (h : condition → ∃ o s', act.run s = (.ok o, s') ∧ Mutates s s' o edges)
    (hnot : ¬ condition → ∃ error, act.run s = (.error error, s)) :
    MutatesExactly act s condition edges := by
  by_cases hcondition : condition
  · obtain ⟨o, s', hrun, hmutates⟩ := h hcondition
    refine ⟨⟨fun _ => hcondition, fun _ => ⟨o, s', hrun⟩⟩, ?_, ?_⟩
    · intro o' t hrun'
      rw [hrun] at hrun'
      cases hrun'
      exact hmutates
    · intro error t hrun'
      rw [hrun] at hrun'
      cases hrun'
  · obtain ⟨error, hrun⟩ := hnot hcondition
    refine ⟨⟨?_, fun h => absurd h hcondition⟩, ?_, ?_⟩
    · rintro ⟨o, t, hrun'⟩
      rw [hrun] at hrun'
      cases hrun'
    · intro o t hrun'
      rw [hrun] at hrun'
      cases hrun'
    · intro error' t hrun'
      rw [hrun] at hrun'
      cases hrun'
      rfl

end Checks

/-! ## States and what requests make of them -/

variable {σ : Type} [EditableStore σ] [LawfulStore σ]

/-- A state in which every call can be relied on. -/
structure Healthy (s : σ) : Prop where
  sound : Sound s
  regular : Regular s

theorem Healthy.of_built {s : σ} (h : Built s) (hempty : links s = ∅) : Healthy s where
  sound := sound_of_built h
  regular := regular_of_links_eq_empty (sound_of_built h) hempty

/-- A healthy state that holds these edges and shows the terms of another. -/
structure Relinked (s s' : σ) (edges : Finset Edge) : Prop where
  links_eq : links s' = edges
  sameTerms : SameTerms s s'
  healthy : Healthy s'

/-- A batch that the store has no objection to relinks it. -/
theorem Healthy.apply_run {s : σ} {ops : List EdgeOp} (h : Healthy s)
    (hops : ∀ e, .add e ∈ ops → Known s e.source ∧ Known s e.target ∧ isTypeName e.type = true) :
    ∃ s', (Store.apply ops).run s = (.ok (batchFlags ops (links s)), s') ∧
      Relinked s s' (batchResult ops (links s)) := by
  obtain ⟨s', hrun, hlinks, hregular, hterms⟩ := LawfulStore.apply_run h.sound h.regular hops
  exact ⟨s', hrun, hlinks, hterms, sound_of_apply_run h.sound hrun, hregular⟩

namespace Relations

variable (r : Relations)

theorem liveTerm?_run (s : σ) (id : TermId) :
    (r.liveTerm? id).run s = (.ok (liveRecord s id), s) := by
  unfold liveTerm?
  rw [run_bind_ok (r.call_run (term_run s id)), run_pure, liveRecord]

theorem requireTerm_run (s : σ) (id : TermId) :
    (r.requireTerm id).run s =
      match liveRecord s id with
      | some t => (.ok t, s)
      | none => (.error (.termNotFound id), s) :=
  r.requireTerm_of_readable (readable s) id

/-- Checking a relation looks at the terms and changes nothing. -/
theorem validate_run (s : σ) (source target : TermId) (type : String) :
    (r.validate source target type).run s = (r.verdict s source target type, s) :=
  r.validate_of_readable (readable s) source target type

/-- What a check passes may be added. -/
theorem addable_of_validate {s : σ} {e : Edge} (h : ∃ type t,
    (r.validate e.source e.target e.type).run s = (.ok type, t)) : Addable r.registry s e := by
  obtain ⟨type, t, hrun⟩ := h
  rw [r.validate_run] at hrun
  exact r.addable_of_verdict (congrArg Prod.fst hrun)

/-! ## Mutations -/

section Mutations

variable {s : σ} {e : Edge}

/-- What an accepted mutation that leads to these edges answers. -/
def outcome (s : σ) (e : Edge) (edges : Finset Edge) : Outcome where
  edges := e.plan r.registry
  changed := (symmDiff (links s) edges).card

omit [LawfulStore σ] in
/-- A batch that the store applies is reported with the number of its effective
writes. -/
theorem applyPlan_run {op : Edge → EdgeOp} {s' : σ} {flags : List Bool}
    (h : (Store.apply ((e.plan r.registry).map op)).run s = (.ok flags, s')) :
    (r.applyPlan op e).run s =
      (.ok { edges := e.plan r.registry, changed := flags.count true }, s') := by
  unfold applyPlan
  exact (run_bind_ok (r.call_run h)).trans (run_pure _ _)

/-- Once a relation has passed its checks, adding it is writing its plan. -/
theorem add_eq_applyPlan (he : Addable r.registry s e) :
    (r.add e.source e.target e.type).run s = (r.applyPlan .add e).run s := by
  obtain ⟨type, hverdict, hname⟩ := r.verdict_of_addable he
  have hvalidate := r.validate_run s e.source e.target e.type
  rw [hverdict] at hvalidate
  unfold add
  rw [run_bind_ok hvalidate, hname]

omit [LawfulStore σ] in
/-- Removing a relation of a registered type is writing its plan. -/
theorem remove_eq_applyPlan (he : r.registry.contains e.type = true) :
    (r.remove e.source e.target e.type).run s = (r.applyPlan .remove e).run s := by
  obtain ⟨type, htype⟩ := Option.isSome_iff_exists.1 he
  have hresolve := r.resolveType_run s e.type
  rw [htype] at hresolve
  unfold remove
  rw [run_bind_ok hresolve, (Registry.mem_of_get? htype).2]

/-- A relation that may be added is added whole. -/
theorem add_of_addable (h : Healthy s) (he : Addable r.registry s e) :
    ∃ s', (r.add e.source e.target e.type).run s =
        (.ok (r.outcome s e (links s ∪ (e.plan r.registry).toFinset)), s') ∧
      Relinked s s' (links s ∪ (e.plan r.registry).toFinset) := by
  have hops : ∀ f, .add f ∈ (e.plan r.registry).map EdgeOp.add →
      Known s f.source ∧ Known s f.target ∧ isTypeName f.type = true := by
    intro f hf
    obtain ⟨g, hg, hgf⟩ := List.mem_map.1 hf
    obtain rfl := EdgeOp.add.inj hgf
    exact he.known_of_mem_plan hg
  obtain ⟨s', hrun, hrelinked⟩ := h.apply_run hops
  rw [batchResult_add] at hrelinked
  refine ⟨s', ?_, hrelinked⟩
  rw [r.add_eq_applyPlan he, r.applyPlan_run hrun, count_batchFlags_add]
  rfl

/-- A relation that may not be added is refused, and nothing is written. -/
theorem add_of_not_addable (s : σ) (he : ¬ Addable r.registry s e) :
    ∃ error, (r.add e.source e.target e.type).run s = (.error error, s) := by
  have hvalidate := r.validate_run s e.source e.target e.type
  cases hverdict : r.verdict s e.source e.target e.type with
  | ok type => exact absurd (r.addable_of_verdict hverdict) he
  | error error =>
      rw [hverdict] at hvalidate
      exact ⟨error, run_bind_error hvalidate⟩

/-- A relation of a registered type is removed whole, whatever its ends are. -/
theorem remove_of_contains (h : Healthy s) (he : r.registry.contains e.type = true) :
    ∃ s', (r.remove e.source e.target e.type).run s =
        (.ok (r.outcome s e (links s \ (e.plan r.registry).toFinset)), s') ∧
      Relinked s s' (links s \ (e.plan r.registry).toFinset) := by
  have hops : ∀ f, .add f ∈ (e.plan r.registry).map EdgeOp.remove →
      Known s f.source ∧ Known s f.target ∧ isTypeName f.type = true := by
    intro f hf
    obtain ⟨g, -, hgf⟩ := List.mem_map.1 hf
    cases hgf
  obtain ⟨s', hrun, hrelinked⟩ := h.apply_run hops
  rw [batchResult_remove] at hrelinked
  refine ⟨s', ?_, hrelinked⟩
  rw [r.remove_eq_applyPlan he, r.applyPlan_run hrun, count_batchFlags_remove]
  rfl

omit [LawfulStore σ] in
/-- A relation of a type that is not registered is not removed. -/
theorem remove_of_not_contains (s : σ) (he : r.registry.contains e.type = false) :
    (r.remove e.source e.target e.type).run s = (.error (.invalidType e.type), s) := by
  have hresolve := r.resolveType_run s e.type
  rw [Option.isSome_eq_false_iff.1 he |> Option.isNone_iff_eq_none.1] at hresolve
  exact run_bind_error hresolve

theorem add_exact (h : Healthy s) (e : Edge) :
    MutatesExactly (r.add e.source e.target e.type) s (Addable r.registry s e)
      (links s ∪ (e.plan r.registry).toFinset) := by
  refine MutatesExactly.of_runs ?_ (r.add_of_not_addable s)
  intro he
  obtain ⟨s', hrun, hrelinked⟩ := r.add_of_addable h he
  refine ⟨_, s', hrun, hrelinked.links_eq, ?_, hrelinked.sameTerms⟩
  rw [hrelinked.links_eq]
  rfl

theorem remove_exact (h : Healthy s) (e : Edge) :
    MutatesExactly (r.remove e.source e.target e.type) s (r.registry.contains e.type = true)
      (links s \ (e.plan r.registry).toFinset) := by
  refine MutatesExactly.of_runs ?_ ?_
  · intro he
    obtain ⟨s', hrun, hrelinked⟩ := r.remove_of_contains h he
    refine ⟨_, s', hrun, hrelinked.links_eq, ?_, hrelinked.sameTerms⟩
    rw [hrelinked.links_eq]
    rfl
  · intro he
    exact ⟨_, r.remove_of_not_contains s (Bool.eq_false_iff.2 he)⟩

end Mutations

/-! ## Lists -/

/-- The relations that a term lists, read off the edges and the terms. -/
def listed (s : σ) (id : TermId) : List RelatedTerm :=
  (leaving s id []).filterMap fun e =>
    (liveRecord s e.target).map fun t => { type := e.type, term := t.toRef }

theorem relationsOf_run (s : σ) (id : TermId) :
    (r.relationsOf id).run s =
      match liveRecord s id with
      | some _ => (.ok (listed s id), s)
      | none => (.error (.termNotFound id), s) := by
  have hrequire := r.requireTerm_run s id
  unfold relationsOf
  cases hlive : liveRecord s id with
  | none =>
      rw [hlive] at hrequire
      exact run_bind_error hrequire
  | some t =>
      rw [hlive] at hrequire
      rw [run_bind_ok hrequire, run_bind_ok (r.call_run (edgesFrom_run s id []))]
      rw [run_bind_ok (run_mapM_ok _ fun e _ => by
        rw [run_bind_ok (r.liveTerm?_run s e.target), run_pure])]
      show (Except.ok (List.filterMap (fun x => x) (List.map _ _)), s) = _
      rw [List.filterMap_map]
      rfl

/-- Between live terms, what is listed is what is stored. -/
theorem mem_listed_iff {s : σ} {id target : TermId} {type : String} {t : Term} (h : Sound s)
    (hid : Known s id) (ht : liveRecord s target = some t) :
    (∃ x ∈ listed s id, x.type = type ∧ x.term.id = target) ↔
      { source := id, target := target, type := type } ∈ links s := by
  have hmem : ∀ e, e ∈ leaving s id [] ↔
      e ∈ links s ∧ e.source = id ∧ TypeFilter.accepts [] e.type = true := by
    intro e
    exact mem_leaving h hid fun type htype => absurd htype List.not_mem_nil
  constructor
  · rintro ⟨x, hx, rfl, rfl⟩
    obtain ⟨e, he, hex⟩ := List.mem_filterMap.1 hx
    obtain ⟨u, hu, rfl⟩ := Option.map_eq_some_iff.1 hex
    obtain ⟨helinks, rfl, -⟩ := (hmem e).1 he
    show { source := e.source, target := u.id, type := e.type } ∈ links s
    rw [id_of_liveRecord h hu]
    exact helinks
  · intro he
    refine ⟨{ type := type, term := t.toRef }, ?_, rfl, id_of_liveRecord h ht⟩
    refine List.mem_filterMap.2 ⟨_, (hmem _).2 ⟨he, rfl, rfl⟩, ?_⟩
    rw [ht]
    rfl

end Relations

end Thesaurus
