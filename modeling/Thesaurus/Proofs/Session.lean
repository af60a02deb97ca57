import Thesaurus.Proofs.Message.Engine
import Thesaurus.Proofs.Store.Backend

/-!
# Sessions

A session writes glossaries and terms, makes requests about relations, imports
rows and answers messages, in any order, and each step may succeed or fail.

## Main definitions

* `Action`: one step of a session.
* `Reached`: the states that sessions lead to.

## Main results

* `relations_stay_whole`: every session keeps relations whole, so each is listed
  from both of its ends.
* `mutations_exact`: when adding and removing succeed, and what exactly they do.
-/

namespace Thesaurus

open Store LawfulStore Message

/-- One step of a session. -/
inductive Action
  | edit (x : Edit)
  | request (q : RelationRequest)
  | message (text : String)
deriving DecidableEq, Repr

section Sessions

variable {σ : Type} [EditableStore σ]

/-- The state after a step, whether it succeeds or fails. -/
def Action.run (a : Action) (e : Engine) (s : σ) : σ :=
  match a with
  | .edit x => x.run s
  | .request q => q.run e.relations s
  | .message text => ((e.respond text).run s).2

/-- The state after a list of steps. -/
def runActions (e : Engine) (actions : List Action) (s : σ) : σ :=
  actions.foldl (fun s a => a.run e s) s

/-- The states that sessions lead to from the store that holds nothing. Every step
may be made by an engine of its own. -/
inductive Reached : σ → Prop
  | empty : Reached EditableStore.empty
  | action {s : σ} (a : Action) (e : Engine) (h : Reached s) : Reached (a.run e s)

theorem reached_runActions (e : Engine) (actions : List Action) :
    ∀ s : σ, Reached s → Reached (runActions e actions s) := by
  induction actions with
  | nil => intro s hs; exact hs
  | cons a rest ih => intro s hs; exact ih (a.run e s) (.action a e hs)

/-! ## Invariants of sessions -/

variable [LawfulStore σ]

theorem Healthy.edit {s : σ} (h : Healthy s) (x : Edit) : Healthy (x.run s) where
  sound := sound_write (.edit x) h.sound
  regular := regular_edit x h.regular

/-- What edits and mutations keep, every step keeps. -/
theorem KeptByMutations.action {e : Engine} {P : σ → Prop} (h : KeptByMutations e.relations P)
    (hedit : ∀ s x, P s → P (Edit.run x s)) (a : Action) {s : σ} (hs : P s) : P (a.run e s) := by
  cases a with
  | edit x => exact hedit s x hs
  | request q => exact h.request q hs
  | message text => exact h.respond text hs

/-- What changes and edits keep, every step keeps. -/
theorem RelationInvariant.action {e : Engine} {P : σ → Prop}
    (h : RelationInvariant e.registry P) (hedit : ∀ s x, P s → P (Edit.run x s)) (a : Action)
    {s : σ} (hs : P s) : P (a.run e s) :=
  KeptByMutations.action (e := e) (RelationInvariant.kept (r := e.relations) h) hedit a hs

/-- Sessions write to the store by its calls only. -/
theorem built_of_reached {s : σ} (h : Reached s) : Built s := by
  induction h with
  | empty => exact .empty
  | action a e _ ih =>
      exact (keptByMutations_built e.relations).action (fun s x hs => .write (.edit x) hs) a ih

theorem relationInvariant_healthy (registry : Registry) :
    RelationInvariant registry (Healthy (σ := σ)) where
  healthy _ h := h
  change s s' _ h := by
    cases h with
    | added e he h => exact h.healthy
    | removed e he h => exact h.healthy

theorem relationInvariant_paired (registry : Registry) :
    RelationInvariant registry fun s : σ => Healthy s ∧ Paired registry (links s) where
  healthy _ h := h.1
  change s s' hs h := by
    obtain ⟨-, hpaired⟩ := hs
    cases h with
    | added e he h =>
        rw [h.links_eq]
        exact ⟨h.healthy, hpaired.union_plan he.ends he.contains⟩
    | removed e he h =>
        rw [h.links_eq]
        exact ⟨h.healthy, hpaired.sdiff_plan e⟩

theorem healthy_of_reached {s : σ} (h : Reached s) : Healthy s := by
  induction h with
  | empty => exact ⟨sound_empty, regular_of_links_eq_empty sound_empty links_empty⟩
  | action a e _ ih =>
      exact (relationInvariant_healthy e.registry).action (fun s x hs => hs.edit x) a ih

theorem paired_of_actions (e : Engine) (actions : List Action) :
    ∀ s : σ, Healthy s → Paired e.registry (links s) →
      Healthy (runActions e actions s) ∧ Paired e.registry (links (runActions e actions s)) := by
  induction actions with
  | nil => intro s hs hpaired; exact ⟨hs, hpaired⟩
  | cons a rest ih =>
      intro s hs hpaired
      have hstep := (relationInvariant_paired e.registry).action
        (fun s x h => ⟨h.1.edit x, by rw [links_edit]; exact h.2⟩) a ⟨hs, hpaired⟩
      exact ih (a.run e s) hstep.1 hstep.2

end Sessions

/-- A session that writes a glossary with two terms. -/
def writeTwoTerms : List Action :=
  let glossary : Glossary := { id := ⟨"art"⟩, name := "Art" }
  [.edit (.putGlossary glossary), .edit (.putTerm (.topLevel ⟨"cubism"⟩ glossary "Cubism")),
    .edit (.putTerm (.topLevel ⟨"painting"⟩ glossary "Painting"))]

/-! ## Relations stay whole -/

/-- Whether a list names a term under a type. -/
def Mentions (related : List RelatedTerm) (type : String) (id : TermId) : Prop :=
  ∃ x ∈ related, x.type = type ∧ x.term.id = id

/-- However a session goes, relations are stored as wholes, between different terms
and under registered types. Two live terms therefore list each other under types
that imply each other, or neither lists the other. -/
theorem relations_stay_whole (b : Backend) (e : Engine) (s : b.State) (hs : Built s)
    (hempty : links s = ∅) (actions : List Action) :
    let s' := runActions e actions s
    Paired e.registry (links s') ∧
      ∀ a c, (liveRecord s' a).isSome → (liveRecord s' c).isSome →
        ∃ ofA ofC, (e.relations.relationsOf a).run s' = (.ok ofA, s') ∧
          (e.relations.relationsOf c).run s' = (.ok ofC, s') ∧
          ∀ T T', e.registry.implied? T = some T' → (Mentions ofA T c ↔ Mentions ofC T' a) := by
  intro s'
  have hstart := Healthy.of_built hs hempty
  have hpairedStart : Paired e.registry (links s) := by
    rw [hempty]
    exact Paired.empty e.registry
  obtain ⟨hhealthy, hpaired⟩ := paired_of_actions e actions s hstart hpairedStart
  refine ⟨hpaired, ?_⟩
  intro a c ha hc
  obtain ⟨t, ht⟩ := Option.isSome_iff_exists.1 ha
  obtain ⟨u, hu⟩ := Option.isSome_iff_exists.1 hc
  have hruna := e.relations.relationsOf_run s' a
  have hrunc := e.relations.relationsOf_run s' c
  rw [ht] at hruna
  rw [hu] at hrunc
  refine ⟨_, _, hruna, hrunc, ?_⟩
  intro T T' himplied
  unfold Mentions
  rw [Relations.mem_listed_iff hhealthy.sound (known_of_liveRecord ht) hu,
    Relations.mem_listed_iff hhealthy.sound (known_of_liveRecord hu) ht]
  constructor
  · intro hmem
    exact hpaired.inverse _ hmem _ (Edge.inverse?_eq_some_iff.2 ⟨himplied, rfl, rfl⟩)
  · intro hmem
    exact hpaired.inverse _ hmem _
      (Edge.inverse?_eq_some_iff.2 ⟨Registry.implied?_symm himplied, rfl, rfl⟩)

/-- A relation that is added in a session is listed from both of its ends. -/
theorem broader_stays_whole :
    let e : Engine := .ofSettings .builtin {}
    let actions := writeTwoTerms ++ [.request (.add ⟨"cubism"⟩ ⟨"painting"⟩ "broader")]
    let s : Backend.State .memory := EditableStore.empty
    let s' := runActions e actions s
    Built s ∧ links s = ∅ ∧ Paired e.registry (links s') ∧ (links s').card = 2 ∧
      ∃ ofA ofC, (e.relations.relationsOf ⟨"cubism"⟩).run s' = (.ok ofA, s') ∧
        (e.relations.relationsOf ⟨"painting"⟩).run s' = (.ok ofC, s') ∧
        Mentions ofA "broader" ⟨"painting"⟩ ∧ Mentions ofC "narrower" ⟨"cubism"⟩ := by
  intro e actions s s'
  obtain ⟨hpaired, hlisted⟩ := relations_stay_whole .memory e s .empty links_empty actions
  refine ⟨.empty, links_empty, hpaired, by decide +kernel, ?_⟩
  obtain ⟨ofA, ofC, hruna, hrunc, hboth⟩ := hlisted ⟨"cubism"⟩ ⟨"painting"⟩ rfl rfl
  let broader : RelatedTerm := ⟨"broader", ⟨"painting"⟩, "Art.Painting", "Painting"⟩
  have hbroader : ((e.relations.relationsOf ⟨"cubism"⟩).run s').1 = .ok [broader] := by
    decide +kernel
  have hmentions : Mentions ofA "broader" ⟨"painting"⟩ := by
    obtain rfl : ofA = [broader] :=
      Except.ok.inj ((congrArg Prod.fst hruna).symm.trans hbroader)
    exact ⟨broader, List.mem_singleton_self broader, rfl, rfl⟩
  exact ⟨ofA, ofC, hruna, hrunc, hmentions, (hboth "broader" "narrower" rfl).1 hmentions⟩

/-! ## What a mutation does exactly -/

/-- In every state that sessions lead to, whatever the texts are: a relation is
added exactly when it may be added, and removed exactly when its type is
registered; then its plan is added to, or taken from, the edges. A mutation that
fails leaves the state as it is. -/
theorem mutations_exact (b : Backend) (s : b.State) (hs : Reached s) (r : Relations)
    (source target : TermId) (type : String) :
    let e : Edge := { source := source, target := target, type := type }
    MutatesExactly (r.add source target type) s (Addable r.registry s e)
        (links s ∪ (e.plan r.registry).toFinset) ∧
      MutatesExactly (r.remove source target type) s (r.registry.contains type = true)
        (links s \ (e.plan r.registry).toFinset) := by
  intro e
  have hhealthy := healthy_of_reached hs
  exact ⟨r.add_exact hhealthy e, r.remove_exact hhealthy e⟩

/-- Between two terms of one glossary, a type that may not cross is accepted. -/
theorem broader_added_exactly :
    let e : Engine := .ofSettings .builtin {}
    let s : Backend.State .memory := runActions e writeTwoTerms EditableStore.empty
    Reached s ∧
      ∃ o s', (e.relations.add ⟨"cubism"⟩ ⟨"painting"⟩ "broader").run s = (.ok o, s') := by
  intro e s
  have hs : Reached s := reached_runActions e writeTwoTerms _ .empty
  refine ⟨hs, (mutations_exact .memory s hs e.relations _ _ _).1.succeeds_iff.2 ?_⟩
  exact ⟨by decide, _, _, _, rfl, rfl, rfl, .inr rfl⟩

end Thesaurus
