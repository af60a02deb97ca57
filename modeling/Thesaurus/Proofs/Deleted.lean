import Thesaurus.Proofs.Neighbourhood.Exact
import Thesaurus.Proofs.Rdf.Scheme
import Thesaurus.Proofs.Session
import Thesaurus.Proofs.Store.Purge
import Thesaurus.Sheet.Import

/-!
# Deleted terms are not seen

A store keeps deleted terms and the edges that touch them, and every reader passes
over them in its own way: lists by looking up the target of each edge, the search by
looking up each term before it is found, exports by asking for the members and for the
targets. All of them answer as if the deleted terms and their edges were not there.

An edge that leaves a live term and touches a deleted one leads to it. So the edges
that purging a store takes away from a live term are edges that a reader passes over.

## Main definitions

* `SameAnswer`: a computation that looks at two states and finds the same in both.

## Main results

* `liveRecord_eq_none_of_mem_leaving`: the edges that purging takes away.
* `Exploration.search_purged`: the search.
* `deleted_terms_unseen`: all readers.
-/

namespace Thesaurus

open Store LawfulStore Message

/-- A computation that has one answer in both states and leaves them as they are. -/
def SameAnswer {σ ε α : Type} (act : ExceptT ε (StateM σ) α) (s s' : σ) : Prop :=
  ∃ result, act.run s = (result, s) ∧ act.run s' = (result, s')

/-! ## Lists without what is passed over -/

theorem filterMap_filter_of_eq_none {α β : Type} {p : α → Bool} {f : α → Option β} {l : List α}
    (h : ∀ a ∈ l, p a = false → f a = none) : (l.filter p).filterMap f = l.filterMap f := by
  rw [List.filterMap_filter]
  refine List.filterMap_congr fun a ha => ?_
  cases hp : p a with
  | true => rfl
  | false => exact (h a ha hp).symm

theorem flatMap_filter_of_eq_nil {α β : Type} {p : α → Bool} {f : α → List β} {l : List α}
    (h : ∀ a ∈ l, p a = false → f a = []) : (l.filter p).flatMap f = l.flatMap f := by
  induction l with
  | nil => rfl
  | cons a rest ih =>
      have hrest := ih fun b hb => h b (List.mem_cons_of_mem a hb)
      cases hp : p a with
      | true => rw [List.filter_cons_of_pos hp, List.flatMap_cons, List.flatMap_cons, hrest]
      | false =>
          rw [List.filter_cons_of_neg (Bool.eq_false_iff.1 hp), hrest, List.flatMap_cons,
            h a List.mem_cons_self hp, List.nil_append]

variable {σ : Type} [EditableStore σ] [LawfulStore σ] {s s' : σ}

/-- Among the edges that leave a live term, those that touch a deleted term lead to no
live one. -/
theorem liveRecord_eq_none_of_mem_leaving (hs : Sound s) {id : TermId} {filter : TypeFilter}
    {e : Edge} (hid : (liveRecord s id).isSome = true)
    (hfilter : ∀ type ∈ filter, isTypeName type = true) (he : e ∈ leaving s id filter)
    (htouches : avoidsDeleted s e = false) : liveRecord s e.target = none := by
  obtain ⟨t, ht⟩ := Option.isSome_iff_exists.1 hid
  obtain ⟨-, rfl, -⟩ := (mem_leaving hs (known_of_liveRecord ht) hfilter).1 he
  rw [avoidsDeleted, isDeleted_eq_false_of_live ht] at htouches
  exact liveRecord_eq_none_of_isDeleted (by simpa using htouches)

/-! ## Lists of relations -/

namespace Relations

variable (r : Relations)

theorem listed_purged (hs : Sound s) (h : Purged s s') {id : TermId}
    (hid : (liveRecord s id).isSome = true) : listed s' id = listed s id := by
  unfold listed
  rw [h.leaving_eq]
  simp only [h.liveRecord_eq]
  refine filterMap_filter_of_eq_none fun e he htouches => ?_
  rw [liveRecord_eq_none_of_mem_leaving hs hid (fun _ htype => absurd htype List.not_mem_nil) he
    htouches]
  rfl

theorem sameAnswer_relationsOf (hs : Sound s) (h : Purged s s') (id : TermId) :
    SameAnswer (r.relationsOf id) s s' := by
  have hrun := r.relationsOf_run s id
  have hrun' := r.relationsOf_run s' id
  rw [h.liveRecord_eq] at hrun'
  cases hlive : liveRecord s id with
  | none =>
      rw [hlive] at hrun hrun'
      exact ⟨_, hrun, hrun'⟩
  | some t =>
      have hid : (liveRecord s id).isSome = true := by rw [hlive]; rfl
      rw [hlive] at hrun hrun'
      rw [listed_purged hs h hid] at hrun'
      exact ⟨_, hrun, hrun'⟩

/-- A cell is made of the list. -/
theorem sameAnswer_cellOf (hs : Sound s) (h : Purged s s') (id : TermId) :
    SameAnswer (r.cellOf id) s s' := by
  obtain ⟨result, hrun, hrun'⟩ := r.sameAnswer_relationsOf hs h id
  unfold cellOf
  cases result with
  | ok related => exact ⟨_, run_bind_ok hrun, run_bind_ok hrun'⟩
  | error error => exact ⟨_, run_bind_error hrun, run_bind_error hrun'⟩

end Relations

/-! ## Neighbourhoods -/

namespace Exploration

omit [LawfulStore σ] in
/-- Without a cap, an edge to a term that is not live changes nothing: it has not been
found and will not be. -/
theorem follow_of_not_live {x : Exploration} {depth : Nat} {e : Edge}
    (hx : ∀ id ∈ x.ids, (liveRecord s id).isSome = true) (he : liveRecord s e.target = none) :
    x.follow s none depth e = x := by
  have hunknown : ¬ x.knows e.target = true := by
    intro hknown
    have hlive := hx _ (knows_iff.1 hknown)
    rw [he] at hlive
    cases hlive
  have hroom : ¬ x.isFull none = true := by simp [isFull]
  unfold follow
  rw [if_neg hunknown, if_neg hroom, he]

/-- A pass comes to the same without edges that lead to no live term. -/
theorem followAll_filter (hs : Sound s) {p : Edge → Bool} (depth : Nat) (es : List Edge) :
    ∀ x : Exploration, (∀ id ∈ x.ids, (liveRecord s id).isSome = true) →
      (∀ e ∈ es, p e = false → liveRecord s e.target = none) →
        x.followAll s none depth (es.filter p) = x.followAll s none depth es := by
  induction es with
  | nil => intro x _ _; rfl
  | cons e rest ih =>
      intro x hx h
      have hrest : ∀ f ∈ rest, p f = false → liveRecord s f.target = none :=
        fun f hf => h f (List.mem_cons_of_mem e hf)
      obtain ⟨new, hpass⟩ := exists_discovers hs depth [e] x hx
      have hlive := hpass.live_of_mem_ids hx
      cases hp : p e with
      | true =>
          rw [List.filter_cons_of_pos hp]
          exact ih (x.follow s none depth e) hlive hrest
      | false =>
          have hsame : x.follow s none depth e = x :=
            follow_of_not_live hx (h e List.mem_cons_self hp)
          rw [List.filter_cons_of_neg (Bool.eq_false_iff.1 hp), ih x hx hrest]
          show _ = (x.follow s none depth e).followAll s none depth rest
          rw [hsame]

omit [LawfulStore σ] in
theorem followAll_congr (h : ∀ id, liveRecord s' id = liveRecord s id) (cap : Option Nat)
    (depth : Nat) (es : List Edge) (x : Exploration) :
    x.followAll s' cap depth es = x.followAll s cap depth es := by
  have hfollow : follow s' cap depth = follow s cap depth := by
    funext y e
    rw [follow, h, follow]
  rw [followAll, hfollow, followAll]

/-- From live terms the search finds the same in the purged state, level by level. -/
theorem search_purged (hs : Sound s) (h : Purged s s') {filter : TypeFilter}
    (hfilter : ∀ type ∈ filter, isTypeName type = true) (levels : Nat) :
    ∀ (depth : Nat) (level : List TermId) (x : Exploration),
      (∀ id ∈ level, (liveRecord s id).isSome = true) →
      (∀ id ∈ x.ids, (liveRecord s id).isSome = true) →
        search s' filter none levels depth level x = search s filter none levels depth level x := by
  induction levels with
  | zero => intro depth level x _ _; rfl
  | succ levels ih =>
      intro depth level x hlevel hx
      have hdepartures : departures s' filter level =
          (departures s filter level).filter (avoidsDeleted s) := by
        unfold departures
        rw [List.filter_flatMap]
        exact List.flatMap_congr fun id _ => h.leaving_eq id filter
      have hpassed : ∀ e ∈ departures s filter level, avoidsDeleted s e = false →
          liveRecord s e.target = none := by
        intro e he htouches
        obtain ⟨id, hid, he⟩ := List.mem_flatMap.1 he
        exact liveRecord_eq_none_of_mem_leaving hs (hlevel id hid) hfilter he htouches
      have hpass : x.followAll s' none depth (departures s' filter level) =
          x.followAll s none depth (departures s filter level) := by
        rw [followAll_congr h.liveRecord_eq, hdepartures]
        exact followAll_filter hs depth _ x hx hpassed
      obtain ⟨new, hdiscovers⟩ := exists_discovers hs depth (departures s filter level) x hx
      have hnext := hdiscovers.live_of_mem_ids hx
      unfold search
      rw [hpass]
      refine ih (depth + 1) _ _ (fun id hid => hnext id ?_) hnext
      obtain ⟨p, hp, rfl⟩ := List.mem_map.1 hid
      exact List.mem_map_of_mem (List.mem_of_mem_drop hp)

end Exploration

namespace Relations

variable (r : Relations)

theorem sameAnswer_neighbourhood (hs : Sound s) (h : Purged s s') (root : TermId)
    (maxDepth : Nat) (filter : TypeFilter) :
    SameAnswer (r.neighbourhood root maxDepth filter none) s s' := by
  cases hunknown : filter.find? (fun type => !r.registry.contains type) with
  | some unknown =>
      exact ⟨_, r.neighbourhood_of_unknown s root maxDepth none hunknown,
        r.neighbourhood_of_unknown s' root maxDepth none hunknown⟩
  | none =>
      have hfilter := Registry.find?_not_contains_eq_none_iff.1 hunknown
      cases hroot : liveRecord s root with
      | none =>
          have hroot' : liveRecord s' root = none := by rw [h.liveRecord_eq, hroot]
          exact ⟨_, r.neighbourhood_of_not_live s maxDepth none hroot hfilter,
            r.neighbourhood_of_not_live s' maxDepth none hroot' hfilter⟩
      | some t =>
          have hroot' : liveRecord s' root = some t := by rw [h.liveRecord_eq, hroot]
          have hlive : ∀ id ∈ [root], (liveRecord s id).isSome = true := by
            intro id hid
            rw [List.mem_singleton.1 hid, hroot]
            rfl
          have hfound : ∀ id ∈ ({ found := [(t, 0)] } : Exploration).ids,
              (liveRecord s id).isSome = true := by
            intro id hid
            have hid : id = t.id := List.mem_singleton.1 hid
            rw [hid, id_of_liveRecord hs hroot, hroot]
            rfl
          have hsearch := Exploration.search_purged hs h
            (fun type htype => Registry.isTypeName_of_contains (hfilter type htype)) maxDepth 0
            [root] { found := [(t, 0)] } hlive hfound
          have hrun' := r.neighbourhood_run s' maxDepth none hroot' hfilter
          rw [hsearch] at hrun'
          exact ⟨_, r.neighbourhood_run s maxDepth none hroot hfilter, hrun'⟩

end Relations

/-! ## Exports -/

theorem sameAnswer_members (h : Purged s s') (id : GlossaryId) :
    SameAnswer (Store.members id) s s' := by
  refine ⟨_, members_run s id, ?_⟩
  rw [members_run, h.members_eq]

namespace Exporter

variable (x : Exporter)

theorem relationStatements_purged (hs : Sound s) (h : Purged s s') {id : TermId}
    (hid : (liveRecord s id).isSome = true) :
    x.relationStatements s' id = x.relationStatements s id := by
  have hstatements : x.edgeStatements s' = x.edgeStatements s := by
    funext e
    rw [edgeStatements, h.liveRecord_eq, edgeStatements]
  unfold relationStatements
  rw [h.leaving_eq, hstatements]
  refine flatMap_filter_of_eq_nil fun e he htouches => ?_
  rw [edgeStatements, liveRecord_eq_none_of_mem_leaving hs hid
    (fun _ htype => absurd htype List.not_mem_nil) he htouches]
  cases x.registry.get? e.type with
  | none => rfl
  | some type => rfl

/-- The members are live, so what is stated of them is the same. -/
theorem statements_purged (hs : Sound s) (h : Purged s s') {id : GlossaryId}
    (hmembers : ∀ t ∈ membersOf s id, (liveRecord s t.id).isSome = true) (g : Glossary)
    (withRelations : Bool) : x.statements s' id g withRelations =
      x.statements s id g withRelations := by
  have hrelated : ((membersOf s id).flatMap fun t => x.relationStatements s' t.id) =
      (membersOf s id).flatMap fun t => x.relationStatements s t.id :=
    List.flatMap_congr fun t ht => x.relationStatements_purged hs h (hmembers t ht)
  unfold statements
  rw [h.members_eq]
  simp only [hrelated]

theorem sameAnswer_triples (hs : Sound s) (h : Purged s s') {id : GlossaryId}
    (hmembers : ∀ t ∈ membersOf s id, (liveRecord s t.id).isSome = true) (withRelations : Bool) :
    SameAnswer (x.triples id withRelations) s s' := by
  have hglossary : glossaryRecord s' id = glossaryRecord s id := by
    rw [glossaryRecord, h.glossary_eq, glossaryRecord]
  have hrun := x.triples_run s id withRelations
  have hrun' := x.triples_run s' id withRelations
  rw [hglossary] at hrun'
  cases hg : glossaryRecord s id with
  | none =>
      rw [hg] at hrun hrun'
      exact ⟨_, hrun, hrun'⟩
  | some g =>
      rw [hg] at hrun hrun'
      simp only [x.statements_purged hs h hmembers] at hrun'
      exact ⟨_, hrun, hrun'⟩

/-- A document is written from the statements. -/
theorem sameAnswer_document (hs : Sound s) (h : Purged s s') {id : GlossaryId}
    (hmembers : ∀ t ∈ membersOf s id, (liveRecord s t.id).isSome = true) (format : Rdf.Format)
    (withRelations : Bool) : SameAnswer (x.document id format withRelations) s s' := by
  obtain ⟨result, hrun, hrun'⟩ := x.sameAnswer_triples hs h hmembers withRelations
  unfold document
  cases result with
  | ok set => exact ⟨_, run_bind_ok hrun, run_bind_ok hrun'⟩
  | error error => exact ⟨_, run_bind_error hrun, run_bind_error hrun'⟩

end Exporter

/-! ## All readers -/

/-- The readers give one answer on a state and on the state without its deleted terms
and the edges that touch them: the list of relations, the cell and the neighbourhood
without a cap for every term, the members, the statements and the documents for every
glossary. For a deleted term there is no list in either state, and no neighbourhood. -/
theorem deleted_terms_unseen (b : Backend) (s : b.State) (hs : Built s) :
    let s' := b.purged s
    (∀ r : Relations,
      (∀ id, SameAnswer (r.relationsOf id) s s' ∧ SameAnswer (r.cellOf id) s s' ∧
        ∀ maxDepth filter, SameAnswer (r.neighbourhood id maxDepth filter none) s s') ∧
      ∀ id, isDeleted s id = true → ∀ state ∈ [s, s'],
        (r.relationsOf id).run state = (.error (.termNotFound id), state) ∧
          ∀ maxDepth filter cap, (∀ type ∈ filter, r.registry.contains type = true) →
            (r.neighbourhood id maxDepth filter cap).run state =
              (.error (.termNotFound id), state)) ∧
      ∀ id : GlossaryId, SameAnswer (Store.members id) s s' ∧
        ∀ (x : Exporter) withRelations, SameAnswer (x.triples id withRelations) s s' ∧
          ∀ format, SameAnswer (x.document id format withRelations) s s' := by
  intro s'
  have hsound := sound_of_built hs
  have hpurged : Purged s s' := b.isPurged hs
  refine ⟨fun r => ⟨fun id => ⟨?_, ?_, ?_⟩, ?_⟩, fun id => ⟨?_, ?_⟩⟩
  · exact r.sameAnswer_relationsOf hsound hpurged id
  · exact r.sameAnswer_cellOf hsound hpurged id
  · exact r.sameAnswer_neighbourhood hsound hpurged id
  · intro id hdeleted state hstate
    have hgone : liveRecord state id = none := by
      have hnone := liveRecord_eq_none_of_isDeleted hdeleted
      rcases List.mem_pair.1 hstate with rfl | rfl
      · exact hnone
      · rw [hpurged.liveRecord_eq, hnone]
    have hrun := r.relationsOf_run state id
    rw [hgone] at hrun
    exact ⟨hrun, fun maxDepth filter cap => r.neighbourhood_of_not_live state maxDepth cap hgone⟩
  · exact sameAnswer_members hpurged id
  · intro x withRelations
    have hmembers : ∀ t ∈ membersOf s id, (liveRecord s t.id).isSome = true := by
      intro t ht
      obtain ⟨hrecord, -, hlive⟩ := (DirectoryStore.mem_membersOf hs).1 ht
      rw [liveRecord_eq_some_iff.2 ⟨hrecord, hlive⟩]
      rfl
    exact ⟨x.sameAnswer_triples hsound hpurged hmembers withRelations,
      fun format => x.sameAnswer_document hsound hpurged hmembers format withRelations⟩

/-- A session that relates a term to two others and deletes one of these. -/
def deleteRelated : List Action :=
  let glossary : Glossary := { id := ⟨"art"⟩, name := "Art" }
  writeTwoTerms ++
    [.edit (.putTerm (.topLevel ⟨"sculpture"⟩ glossary "Sculpture")),
      .request (.add ⟨"cubism"⟩ ⟨"painting"⟩ "broader"),
      .request (.add ⟨"cubism"⟩ ⟨"sculpture"⟩ "relatedTo"), .edit (.deleteTerm ⟨"painting"⟩)]

/-- Two of four edges touch the deleted term, and nothing is seen of them. -/
theorem deleted_painting_unseen :
    let e : Engine := .ofSettings .builtin {}
    let s : Backend.State .ordered := runActions e deleteRelated EditableStore.empty
    let s' := Backend.purged .ordered s
    Built s ∧ isDeleted s ⟨"painting"⟩ = true ∧ (links s).card = 4 ∧ (links s').card = 2 ∧
      SameAnswer (e.relations.relationsOf ⟨"cubism"⟩) s s' ∧
        SameAnswer (e.exporter.document ⟨"art"⟩ .turtle true) s s' ∧
          (e.relations.relationsOf ⟨"painting"⟩).run s' =
            (.error (.termNotFound ⟨"painting"⟩), s') := by
  intro e s s'
  have hs : Built s := built_of_reached (reached_runActions e deleteRelated _ .empty)
  obtain ⟨hrelations, hglossaries⟩ := deleted_terms_unseen .ordered s hs
  obtain ⟨hlists, hgone⟩ := hrelations e.relations
  have hdeleted : isDeleted s ⟨"painting"⟩ = true := by decide +kernel
  refine ⟨hs, hdeleted, by decide +kernel, by decide +kernel, (hlists ⟨"cubism"⟩).1, ?_, ?_⟩
  · exact ((hglossaries ⟨"art"⟩).2 e.exporter true).2 .turtle
  · exact (hgone ⟨"painting"⟩ hdeleted s' (List.mem_pair.2 (.inr rfl))).1

end Thesaurus
