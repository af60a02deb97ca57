import Thesaurus.Proofs.Relations.GlossaryPolicy
import Thesaurus.Proofs.Session
import Thesaurus.Proofs.Store.Directory

/-!
# Sessions that take care of their terms

Requests about relations see to it that relations keep to glossaries, but they do
not hear of terms that move to another glossary later. Stores find terms by name,
but not all of them once two terms have shared one. Sessions that avoid both keep
what imports and exports rely on.

## Main definitions

* `Settled`: no term moves to another glossary while it has relations.
* `ReachedApart`: the states of sessions in which no two terms ever share a name.

## Main results

* `glossaryPolicy_of_settled`: relations stay within glossaries unless they may cross.
* `ReachedApart.indexed`: every term is found by its name.
-/

namespace Thesaurus

open Store LawfulStore Message

variable {σ : Type} [EditableStore σ]

/-! ## Terms that stay in their glossaries -/

/-- Whether an edit leaves all terms that have relations in their glossaries. -/
def Edit.Settles (x : Edit) (s : σ) : Prop :=
  ∀ t u f, x = .putTerm t → record s t.id = some u → f ∈ links s →
    f.source = t.id ∨ f.target = t.id → u.glossary = t.glossary

/-- A session in which no term moves to another glossary while it has relations. -/
def Settled (e : Engine) : List Action → σ → Prop
  | [], _ => True
  | a :: rest, s => (∀ x, a = .edit x → x.Settles s) ∧ Settled e rest (a.run e s)

variable [LawfulStore σ] [DirectoryStore σ]

/-- The end of an edge has a record after an edit, in the glossary where it was. -/
theorem exists_record_editRun {s : σ} {x : Edit} {f : Edge} {id : TermId} {t : Term}
    (hs : Sound s) (hx : x.Settles s) (hf : f ∈ links s) (hid : f.source = id ∨ f.target = id)
    (ht : record s id = some t) :
    ∃ u, record (x.run s) id = some u ∧ u.glossary = t.glossary := by
  rcases DirectoryStore.record_edit x hs with hrefused | hrecords
  · exact ⟨t, by rw [hrefused, ht], rfl⟩
  · rw [hrecords]
    cases x with
    | putGlossary g => exact ⟨t, ht, rfl⟩
    | putTerm v =>
        rw [Edit.onTerms]
        by_cases hown : id = v.id
        · subst hown
          exact ⟨v, if_pos rfl, (hx v t f rfl ht hf hid).symm⟩
        · exact ⟨t, by rw [if_neg hown, ht], rfl⟩
    | deleteTerm deleted =>
        rw [Edit.onTerms]
        by_cases hown : id = deleted
        · exact ⟨t.asDeleted, by rw [if_pos hown, ht]; rfl, rfl⟩
        · exact ⟨t, by rw [if_neg hown, ht], rfl⟩

theorem GlossaryPolicy.edit {registry : Registry} {s : σ} {x : Edit} (hs : Sound s)
    (hpolicy : GlossaryPolicy registry s) (hx : x.Settles s) :
    GlossaryPolicy registry (x.run s) := by
  intro f hf type htype hcrosses
  rw [links_edit] at hf
  obtain ⟨t, u, ht, hu, hsame⟩ := hpolicy f hf type htype hcrosses
  obtain ⟨t', ht', htg⟩ := exists_record_editRun hs hx hf (.inl rfl) ht
  obtain ⟨u', hu', hug⟩ := exists_record_editRun hs hx hf (.inr rfl) hu
  exact ⟨t', u', ht', hu', by rw [htg, hug, hsame]⟩

/-- Where types that imply each other have the same flag, settled sessions keep the
policy. -/
theorem glossaryPolicy_of_settled {e : Engine} (hagree : PairsAgree e.registry)
    (actions : List Action) :
    ∀ s : σ, Healthy s → GlossaryPolicy e.registry s → Settled e actions s →
      GlossaryPolicy e.registry (runActions e actions s) := by
  have hkept : KeptByMutations e.relations fun s : σ =>
      Healthy s ∧ GlossaryPolicy e.registry s :=
    RelationInvariant.kept (r := e.relations) (relationInvariant_glossaryPolicy hagree)
  induction actions with
  | nil => intro s _ hpolicy _; exact hpolicy
  | cons a rest ih =>
      intro s hs hpolicy hsettled
      obtain ⟨hstep, hrest⟩ := hsettled
      have hnext : Healthy (a.run e s) ∧ GlossaryPolicy e.registry (a.run e s) := by
        cases a with
        | edit x => exact ⟨hs.edit x, hpolicy.edit hs.sound (hstep x rfl)⟩
        | request q => exact hkept.request q ⟨hs, hpolicy⟩
        | message text => exact hkept.respond text ⟨hs, hpolicy⟩
      exact ih (a.run e s) hnext.1 hnext.2 hrest

omit [LawfulStore σ] [DirectoryStore σ] in
/-- Requests do not write terms. -/
theorem settled_of_requests (e : Engine) (requests : List RelationRequest) :
    ∀ s : σ, Settled e (requests.map .request) s := by
  induction requests with
  | nil => intro s; exact trivial
  | cons q rest ih => intro s; exact ⟨fun x hx => (nomatch hx), ih _⟩

omit [DirectoryStore σ] in
/-- Sessions in which all terms are written before there are relations are settled. -/
theorem settled_of_edits (e : Engine) (edits : List Edit) (requests : List RelationRequest) :
    ∀ s : σ, links s = ∅ → Settled e (edits.map .edit ++ requests.map .request) s := by
  induction edits with
  | nil => intro s _; exact settled_of_requests e requests s
  | cons x rest ih =>
      intro s hs
      refine ⟨?_, ih _ ?_⟩
      · intro y hy t u f _ _ hf
        rw [hs] at hf
        exact absurd hf (Finset.notMem_empty f)
      · show links (x.run s) = ∅
        rw [links_edit, hs]

/-! ## Terms that never share a name -/

/-- The states that sessions lead to in which no two terms ever share a name. -/
inductive ReachedApart : σ → Prop
  | empty : ReachedApart EditableStore.empty
  | action {s : σ} (a : Action) (e : Engine) (h : ReachedApart s)
      (hnames : DistinctNames (a.run e s)) : ReachedApart (a.run e s)

omit [DirectoryStore σ] in
theorem relationInvariant_indexed (registry : Registry) :
    RelationInvariant registry fun s : σ => Healthy s ∧ Indexed s where
  healthy _ h := h.1
  change s s' hs h := by
    cases h with
    | added e he h => exact ⟨h.healthy, hs.2.of_sameTerms h.sameTerms⟩
    | removed e he h => exact ⟨h.healthy, hs.2.of_sameTerms h.sameTerms⟩

namespace ReachedApart

omit [LawfulStore σ] [DirectoryStore σ] in
theorem reached {s : σ} (h : ReachedApart s) : Reached s := by
  induction h with
  | empty => exact .empty
  | action a e _ _ ih => exact .action a e ih

omit [LawfulStore σ] [DirectoryStore σ] in
/-- A session, if names are distinct all along. -/
theorem run (e : Engine) (actions : List Action) :
    ∀ {s : σ}, ReachedApart s →
      (∀ before, before <+: actions → DistinctNames (runActions e before s)) →
      ReachedApart (runActions e actions s) := by
  induction actions with
  | nil => intro s h _; exact h
  | cons a rest ih =>
      intro s h hnames
      refine ih (h.action a e (hnames [a] ⟨rest, rfl⟩)) fun before hbefore => ?_
      exact hnames (a :: before) (List.cons_prefix_cons.2 ⟨rfl, hbefore⟩)

theorem distinctNames {s : σ} (h : ReachedApart s) : DistinctNames s := by
  cases h with
  | empty =>
      intro a b t u ht
      rw [DirectoryStore.record_empty] at ht
      cases ht
  | action a e _ hnames => exact hnames

theorem indexed {s : σ} (h : ReachedApart s) : Indexed s := by
  induction h with
  | empty =>
      intro id t ht
      rw [DirectoryStore.record_empty] at ht
      cases ht
  | @action s a e hs hnames ih =>
      have hhealthy := healthy_of_reached hs.reached
      have hkept : KeptByMutations e.relations fun s : σ => Healthy s ∧ Indexed s :=
        RelationInvariant.kept (r := e.relations) (relationInvariant_indexed e.registry)
      cases a with
      | edit x => exact DirectoryStore.indexed_edit x hhealthy.sound ih hs.distinctNames hnames
      | request q => exact (hkept.request q ⟨hhealthy, ih⟩).2
      | message text => exact (hkept.respond text ⟨hhealthy, ih⟩).2

end ReachedApart

/-- What there is to check to see that no two records of an ordered store ever share a
name. -/
theorem OrderedStore.reachedApart_of_nodup (e : Engine) (actions : List Action)
    (h : ∀ before ∈ actions.inits,
      ((OrderedStore.terms (runActions e before (EditableStore.empty : OrderedStore))
        ).values.map (·.fullName)).Nodup) :
    ReachedApart (runActions e actions (EditableStore.empty : OrderedStore)) := by
  refine .run e actions .empty fun before hbefore => ?_
  have hreached : Reached (runActions e before (EditableStore.empty : OrderedStore)) :=
    reached_runActions e before _ .empty
  exact OrderedStore.distinctNames_of_nodup (healthy_of_reached hreached).sound
    (h before ((List.mem_inits before actions).2 hbefore))

end Thesaurus
