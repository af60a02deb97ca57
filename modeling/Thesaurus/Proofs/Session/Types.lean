import Thesaurus.Proofs.Registry.Replacement
import Thesaurus.Proofs.Session

/-!
# Sessions that replace the relation types

Requests on a store go by a registry, and the registry may be replaced between them.
What ties the two together is that the types of all stored edges are registered:
requests keep it because they write edges of registered types only, edits because they
leave edges alone, and replacements because they ask the store which types are in use.
The counts of the registered types therefore leave out no edge.

## Main definitions

* `Catalogue`: a store and the registry in force.
* `Catalogue.replaceTypes`: another registry comes into force, or the present one stays.
* `Step`: a step of a session, or a replacement.

## Main results

* `Registry.total_counts`: counts of registered types leave out no edge.
* `Catalogue.Typed.step`: what every step keeps.
* `types_stay_registered`: sessions, however long, keep all types registered.
-/

namespace Thesaurus

open Store LawfulStore Message

/-- A store and the registry by which requests on it go. -/
structure Catalogue (σ : Type) where
  registry : Registry
  store : σ

/-- One step of a session in which relation types may change. -/
inductive Step
  | action (a : Action)
  | replaceTypes (types : List RelationType) (defaultName : String)
deriving DecidableEq, Repr

section Steps

variable {σ : Type} [EditableStore σ]

namespace Catalogue

/-- What requests and messages are answered by under settings. -/
def engine (c : Catalogue σ) (settings : Settings) : Engine := .ofSettings c.registry settings

/-- Puts a registry of these types in force, unless the present one does not give way to
it. -/
def replaceTypes (types : List RelationType) (defaultName : String) :
    ExceptT ReplacementError (StateM (Catalogue σ)) Unit :=
  ExceptT.mk fun c =>
    match (c.registry.replaceOver types defaultName).run c.store with
    | (.ok registry, store) => (.ok (), { registry := registry, store := store })
    | (.error error, store) => (.error error, { c with store := store })

end Catalogue

/-- The catalogue after a step, whether it succeeds or fails. -/
def Step.run (settings : Settings) (x : Step) (c : Catalogue σ) : Catalogue σ :=
  match x with
  | .action a => { c with store := a.run (c.engine settings) c.store }
  | .replaceTypes types defaultName => ((Catalogue.replaceTypes types defaultName).run c).2

/-- The catalogue after a list of steps. -/
def runSteps (settings : Settings) (steps : List Step) (c : Catalogue σ) : Catalogue σ :=
  steps.foldl (fun c x => x.run settings c) c

end Steps

/-! ## Replacements -/

namespace Catalogue

section Replacing

variable {σ : Type} [EditableStore σ] {c : Catalogue σ} {counts : Table Nat}
  {types : List RelationType} {defaultName : String}

/-- A replacement asks the store for its counts and changes nothing else than the
registry. -/
theorem replaceTypes_run (h : Store.usage.run c.store = (.ok counts, c.store)) :
    (replaceTypes types defaultName).run c =
      match c.registry.replace types defaultName counts.countOf with
      | .ok registry => (.ok (), { c with registry := registry })
      | .error error => (.error (.registry error), c) := by
  have hover : (c.registry.replaceOver types defaultName).run c.store =
      ((c.registry.replace types defaultName counts.countOf).mapError .registry, c.store) := by
    have husage : (ExceptT.adapt ReplacementError.store (Store.usage (σ := σ))).run c.store =
        (.ok counts, c.store) := by
      show (Except.mapError _ (Store.usage.run c.store).1, (Store.usage.run c.store).2) = _
      rw [h]
      rfl
    unfold Registry.replaceOver
    exact run_bind_ok husage
  unfold replaceTypes
  rw [ExceptT.run_mk]
  simp only [hover]
  cases c.registry.replace types defaultName counts.countOf with
  | ok registry => rfl
  | error error => rfl

end Replacing

end Catalogue

/-! ## Counts of registered types -/

section Counting

variable {σ : Type} [Store σ] {s : σ} {edges : List Edge}

/-- Counts by registered type, made from the edges of a store. -/
def Registry.counts (r : Registry) (edges : List Edge) : Table Nat :=
  r.names.foldl (fun counts name => counts.insert name ((countTypes edges).countOf name)) .empty

theorem Relations.usage_run (r : Relations)
    (h : Store.usage.run s = (.ok (countTypes edges), s)) :
    r.usage.run s = (.ok (r.registry.counts edges), s) := by
  unfold usage
  rw [run_bind_ok (r.call_run h), run_pure, Registry.counts, Registry.names, List.foldl_map]
  rfl

/-- No edge is left out when the registered types are counted. -/
theorem Registry.total_counts (r : Registry) (h : Registered r edges.toFinset) :
    (r.counts edges).total = edges.length := by
  have hnames : ∀ type ∈ edges.map (·.type), type ∈ r.names := by
    intro type htype
    obtain ⟨e, he, rfl⟩ := List.mem_map.1 htype
    exact contains_iff_mem_names.1 (h e (List.mem_toFinset.2 he))
  have hempty : ∀ name ∈ r.names, (Table.empty : Table Nat).get? name = none := fun _ _ => rfl
  have hcounts : (countTypes edges).countOf = fun type => (edges.map (·.type)).count type :=
    funext (countOf_countTypes edges)
  unfold counts
  rw [Table.total_foldl_insert _ _ _ r.nodup_names hempty, hcounts,
    sum_count_eq_length r.nodup_names hnames, List.length_map]
  exact Nat.zero_add _

end Counting

/-! ## What every step keeps -/

/-- Requests write edges of registered types only. -/
theorem relationInvariant_registered {σ : Type} [EditableStore σ] [LawfulStore σ]
    (registry : Registry) :
    RelationInvariant registry fun s : σ => Healthy s ∧ Registered registry (links s) where
  healthy _ h := h.1
  change s s' hs h := by
    obtain ⟨-, hregistered⟩ := hs
    cases h with
    | added e he h =>
        rw [h.links_eq]
        refine ⟨h.healthy, fun f hf => ?_⟩
        rcases Finset.mem_union.1 hf with hf | hf
        · exact hregistered f hf
        · exact registered_plan he.contains f hf
    | removed e he h =>
        rw [h.links_eq]
        exact ⟨h.healthy, fun f hf => hregistered f (Finset.mem_sdiff.1 hf).1⟩

/-- A healthy store whose edges are all of registered types. -/
structure Catalogue.Typed {σ : Type} [EditableStore σ] [LawfulStore σ] (c : Catalogue σ) :
    Prop where
  healthy : Healthy c.store
  registered : Registered c.registry (links c.store)

namespace Catalogue.Typed

variable {b : Backend} {c : Catalogue b.State}

theorem of_links_eq_empty (hbuilt : Built c.store) (hempty : links c.store = ∅) : c.Typed where
  healthy := .of_built hbuilt hempty
  registered e he := by
    rw [hempty] at he
    exact absurd he (Finset.notMem_empty e)

theorem action (h : c.Typed) (settings : Settings) (a : Action) :
    ((Step.action a).run settings c).Typed := by
  have hkept := (relationInvariant_registered c.registry).action (e := c.engine settings)
    (fun s x hs => ⟨hs.1.edit x, by rw [links_edit]; exact hs.2⟩) a ⟨h.healthy, h.registered⟩
  exact ⟨hkept.1, hkept.2⟩

/-- A replacement changes neither edges nor, if it is refused, anything else. -/
theorem replaceTypes (h : c.Typed) (types : List RelationType) (defaultName : String) :
    ((Catalogue.replaceTypes types defaultName).run c).2.Typed ∧
      ∀ error c', (Catalogue.replaceTypes types defaultName).run c = (.error error, c') →
        c' = c := by
  obtain ⟨edges, -, husage, hlinks, -⟩ := b.exists_edges h.healthy.sound
  rw [Catalogue.replaceTypes_run husage]
  cases hreplace : c.registry.replace types defaultName (countTypes edges).countOf with
  | ok registry =>
      have hregistered : Registered c.registry edges.toFinset := by
        rw [hlinks]
        exact h.registered
      refine ⟨⟨h.healthy, ?_⟩, fun error c' hrefused => by cases hrefused⟩
      rw [← hlinks]
      exact hregistered.replace hreplace
  | error error =>
      refine ⟨h, fun error' c' hrefused => ?_⟩
      cases hrefused
      rfl

theorem step (h : c.Typed) (settings : Settings) (x : Step) : (x.run settings c).Typed := by
  cases x with
  | action a => exact h.action settings a
  | replaceTypes types defaultName => exact (h.replaceTypes types defaultName).1

theorem steps (settings : Settings) (steps : List Step) :
    ∀ c : Catalogue b.State, c.Typed → (runSteps settings steps c).Typed := by
  induction steps with
  | nil => intro c h; exact h
  | cons x rest ih => intro c h; exact ih (x.run settings c) (h.step settings x)

end Catalogue.Typed

/-! ## Types stay registered -/

/-- However a session goes that begins without edges, the types of all stored edges are
registered under the registry that is in force. The counts of the registered types
therefore add up to the number of edges. A replacement that is refused leaves registry
and store as they are. -/
theorem types_stay_registered (b : Backend) (settings : Settings) (c : Catalogue b.State)
    (hbuilt : Built c.store) (hempty : links c.store = ∅) (steps : List Step) :
    let c' := runSteps settings steps c
    Registered c'.registry (links c'.store) ∧
      (∃ edges counts, Store.edges.run c'.store = (.ok edges, c'.store) ∧ edges.Nodup ∧
        edges.toFinset = links c'.store ∧
        (c'.engine settings).relations.usage.run c'.store = (.ok counts, c'.store) ∧
          counts.total = edges.length) ∧
      ∀ types defaultName error c'', (Catalogue.replaceTypes types defaultName).run c' =
        (.error error, c'') → c'' = c' := by
  intro c'
  have htyped : c'.Typed :=
    Catalogue.Typed.steps settings steps c (.of_links_eq_empty hbuilt hempty)
  obtain ⟨edges, hedges, husage, hlinks, hnodup⟩ := b.exists_edges htyped.healthy.sound
  have hregistered : Registered c'.registry edges.toFinset := by
    rw [hlinks]
    exact htyped.registered
  refine ⟨htyped.registered, ⟨edges, c'.registry.counts edges, hedges, hnodup, hlinks, ?_, ?_⟩, ?_⟩
  · exact (c'.engine settings).relations.usage_run husage
  · exact c'.registry.total_counts hregistered
  · exact fun types defaultName => (htyped.replaceTypes types defaultName).2

/-- A session that asks to drop a type in use, then drops all the others, and goes on to
delete the end of the link. -/
def keepOneType : List Step :=
  writeTwoTerms.map .action ++
    [.action (.request (.add ⟨"cubism"⟩ ⟨"painting"⟩ "seeAlso")), .replaceTypes [] "seeAlso",
      .replaceTypes (seeAlsoOnly false).types "seeAlso",
      .action (.edit (.deleteTerm ⟨"painting"⟩))]

/-- The type of the link is kept, and once more it is not dropped. -/
theorem seeAlso_stays_registered :
    let c : Catalogue (Backend.State .ordered) :=
      { registry := .builtin, store := EditableStore.empty }
    let c' := runSteps {} keepOneType c
    Built c.store ∧ links c.store = ∅ ∧ c'.registry.names = ["seeAlso"] ∧
      (links c'.store).card = 1 ∧ Registered c'.registry (links c'.store) ∧
        (Catalogue.replaceTypes [] "seeAlso").run c' =
          (.error (.registry (.inUse "seeAlso" 1)), c') := by
  intro c c'
  obtain ⟨hregistered, -, hrefused⟩ :=
    types_stay_registered .ordered {} c .empty links_empty keepOneType
  have hresult : ((Catalogue.replaceTypes [] "seeAlso").run c').1 =
      .error (.registry (.inUse "seeAlso" 1)) := by decide +kernel
  have hrun := run_of_result hresult
  have hstate := hrefused [] "seeAlso" _ _ hrun
  refine ⟨.empty, links_empty, by decide +kernel, by decide +kernel, hregistered, ?_⟩
  rw [hrun, hstate]

end Thesaurus
