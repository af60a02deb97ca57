import Thesaurus.Proofs.Relations.Invariants
import Thesaurus.Proofs.Store.Backend

/-!
# Links between glossaries

A type may forbid its links to lead from one glossary to another. The check looks
at the type of the request alone, but the implied edge is written too, and it has
the flag of its own type. So the policy is kept in every run exactly when types
that imply each other have the same flag; nothing else about the registry matters,
and acceptance does not ask for it.

## Main definitions

* `GlossaryPolicy`: edges of types that may not cross stay within a glossary.
* `PairsAgree`: types that imply each other have the same flag.

## Main results

* `glossaryPolicy_kept_iff`: the policy is kept by all runs exactly when pairs agree.
* `glossaryPolicy_not_kept`: an accepted registry and a request that break it.
-/

namespace Thesaurus

open Store LawfulStore

section Policy

variable {σ : Type} [Store σ]

/-- Two identities whose terms belong to one glossary. -/
def SameGlossary (s : σ) (a b : TermId) : Prop :=
  ∃ t u, record s a = some t ∧ record s b = some u ∧ t.glossary = u.glossary

theorem SameGlossary.symm {s : σ} {a b : TermId} (h : SameGlossary s a b) :
    SameGlossary s b a := by
  obtain ⟨t, u, ht, hu, hsame⟩ := h
  exact ⟨u, t, hu, ht, hsame.symm⟩

theorem SameGlossary.of_sameTerms {s s' : σ} {a b : TermId} (hterms : SameTerms s s')
    (h : SameGlossary s a b) : SameGlossary s' a b := by
  obtain ⟨t, u, ht, hu, hsame⟩ := h
  exact ⟨t, u, by rw [hterms.record_eq, ht], by rw [hterms.record_eq, hu], hsame⟩

/-- Every stored edge of a type that may not cross links terms of one glossary. -/
def GlossaryPolicy (registry : Registry) (s : σ) : Prop :=
  ∀ e ∈ links s, ∀ type, registry.get? e.type = some type → type.crossesGlossaries = false →
    SameGlossary s e.source e.target

theorem GlossaryPolicy.of_links_empty {s : σ} (registry : Registry) (hempty : links s = ∅) :
    GlossaryPolicy registry s := by
  intro e he
  rw [hempty] at he
  exact absurd he (Finset.notMem_empty e)

/-- Types that imply each other may both cross, or neither may. -/
def PairsAgree (registry : Registry) : Prop :=
  ∀ a b t u, registry.implied? a = some b → registry.get? a = some t → registry.get? b = some u →
    t.crossesGlossaries = u.crossesGlossaries

/-- What there is to check of a registry whose pairs agree. -/
theorem pairsAgree_of_types {registry : Registry}
    (h : ∀ t ∈ registry.types, ∀ u ∈ registry.types, t.implied? = some u.name →
      t.crossesGlossaries = u.crossesGlossaries) : PairsAgree registry := by
  intro a c t u himplied ht hu
  have hpair : t.implied? = some c := by
    rw [Registry.implied?, ht] at himplied
    exact himplied
  obtain ⟨humem, rfl⟩ := Registry.mem_of_get? hu
  exact h t (Registry.mem_of_get? ht).1 u humem hpair

theorem pairsAgree_builtin : PairsAgree Registry.builtin :=
  pairsAgree_of_types (by decide +kernel)

/-- Both edges of an addable relation obey the policy when pairs agree. -/
theorem sameGlossary_of_mem_plan {registry : Registry} {s : σ} {e f : Edge} {type : RelationType}
    (hagree : PairsAgree registry) (he : Addable registry s e) (hf : f ∈ e.plan registry)
    (htype : registry.get? f.type = some type) (hcrosses : type.crossesGlossaries = false) :
    SameGlossary s f.source f.target := by
  obtain ⟨own, source, target, hown, hsource, htarget, hglossary⟩ := he.glossaries
  have hsame : own.crossesGlossaries = false → SameGlossary s e.source e.target := by
    intro hstays
    rw [hstays] at hglossary
    exact ⟨source, target, (liveRecord_eq_some_iff.1 hsource).1,
      (liveRecord_eq_some_iff.1 htarget).1, hglossary.resolve_left Bool.false_ne_true⟩
  rcases Edge.mem_plan.1 hf with rfl | hinverse
  · rw [hown] at htype
    obtain rfl := Option.some.inj htype
    exact hsame hcrosses
  · obtain ⟨himplied, hfsource, hftarget⟩ := Edge.inverse?_eq_some_iff.1 hinverse
    rw [hfsource, hftarget]
    exact (hsame ((hagree _ _ _ _ himplied hown htype).trans hcrosses)).symm

end Policy

/-! ## Pairs that agree keep the policy -/

section Kept

variable {σ : Type} [EditableStore σ] [LawfulStore σ]

theorem relationInvariant_glossaryPolicy {registry : Registry} (hagree : PairsAgree registry) :
    RelationInvariant registry fun s : σ => Healthy s ∧ GlossaryPolicy registry s where
  healthy _ h := h.1
  change s s' hs h := by
    obtain ⟨-, hpolicy⟩ := hs
    cases h with
    | added e he h =>
        refine ⟨h.healthy, ?_⟩
        intro f hf type htype hcrosses
        rw [h.links_eq] at hf
        rcases Finset.mem_union.1 hf with hf | hf
        · exact (hpolicy f hf type htype hcrosses).of_sameTerms h.sameTerms
        · exact (sameGlossary_of_mem_plan hagree he (List.mem_toFinset.1 hf) htype
            hcrosses).of_sameTerms h.sameTerms
    | removed e he h =>
        refine ⟨h.healthy, ?_⟩
        intro f hf type htype hcrosses
        rw [h.links_eq] at hf
        exact (hpolicy f (Finset.mem_sdiff.1 hf).1 type htype hcrosses).of_sameTerms h.sameTerms

end Kept

/-! ## A pair that disagrees breaks the policy -/

/-- A store with a term in each of two glossaries. -/
def Backend.twoGlossaries (b : Backend) : b.State :=
  let first : Glossary := { id := ⟨"g1"⟩, name := "First" }
  let second : Glossary := { id := ⟨"g2"⟩, name := "Second" }
  let writes : List Write :=
    [.edit (.putGlossary first), .edit (.putGlossary second),
      .edit (.putTerm (.topLevel ⟨"a"⟩ first "A")), .edit (.putTerm (.topLevel ⟨"b"⟩ second "B"))]
  writes.foldl (fun s w => w.run s) EditableStore.empty

theorem built_twoGlossaries (b : Backend) : Built b.twoGlossaries :=
  Built.writes _ _ .empty

theorem links_twoGlossaries (b : Backend) : links b.twoGlossaries = ∅ := by
  cases b with
  | memory => rfl
  | ordered => rfl

theorem liveRecord_twoGlossaries (b : Backend) :
    ∃ t u, liveRecord b.twoGlossaries ⟨"a"⟩ = some t ∧ liveRecord b.twoGlossaries ⟨"b"⟩ = some u ∧
      t.glossary ≠ u.glossary := by
  cases b with
  | memory => exact ⟨_, _, rfl, rfl, by decide⟩
  | ordered => exact ⟨_, _, rfl, rfl, by decide⟩

/-- Adding a relation that may cross stores what it implies across glossaries, also
when that may not cross. -/
theorem not_glossaryPolicy_of_pair (b : Backend) (r : Relations) {forward backward : String}
    {type implied : RelationType} (himplied : r.registry.implied? forward = some backward)
    (htype : r.registry.get? forward = some type) (hcrosses : type.crossesGlossaries = true)
    (hbackward : r.registry.get? backward = some implied)
    (hstays : implied.crossesGlossaries = false) :
    ¬ GlossaryPolicy r.registry (runRequests r [.add ⟨"a"⟩ ⟨"b"⟩ forward] b.twoGlossaries) := by
  intro hpolicy
  let e : Edge := { source := ⟨"a"⟩, target := ⟨"b"⟩, type := forward }
  let f : Edge := { source := ⟨"b"⟩, target := ⟨"a"⟩, type := backward }
  obtain ⟨t, u, ht, hu, hdiffer⟩ := liveRecord_twoGlossaries b
  have hends : (⟨"a"⟩ : TermId) ≠ ⟨"b"⟩ := by decide
  have he : Addable r.registry b.twoGlossaries e :=
    ⟨hends, type, t, u, htype, ht, hu, .inl hcrosses⟩
  have hhealthy := Healthy.of_built (built_twoGlossaries b) (links_twoGlossaries b)
  obtain ⟨s', hrun, hrelinked⟩ := r.add_of_addable hhealthy he
  have hs' : runRequests r [.add ⟨"a"⟩ ⟨"b"⟩ forward] b.twoGlossaries = s' :=
    congrArg Prod.snd hrun
  have hstored : f ∈ links s' := by
    rw [hrelinked.links_eq]
    refine Finset.mem_union_right _ (List.mem_toFinset.2 (Edge.mem_plan.2 (.inr ?_)))
    exact Edge.inverse?_eq_some_iff.2 ⟨himplied, rfl, rfl⟩
  rw [hs'] at hpolicy
  obtain ⟨u', t', hu', ht', hsame⟩ := hpolicy f hstored implied hbackward hstays
  rw [hrelinked.sameTerms.record_eq, (liveRecord_eq_some_iff.1 hu).1] at hu'
  rw [hrelinked.sameTerms.record_eq, (liveRecord_eq_some_iff.1 ht).1] at ht'
  rw [Option.some.inj hu', Option.some.inj ht'] at hdiffer
  exact hdiffer hsame.symm

/-- Over terms that stay as they are, adding, removing and importing keep the policy
in every run exactly when types that imply each other have the same flag. -/
theorem glossaryPolicy_kept_iff (b : Backend) (registry : Registry) :
    (∀ s : b.State, Built s → links s = ∅ → ∀ timeout requests,
      GlossaryPolicy registry (runRequests { registry := registry, timeout := timeout } requests s))
      ↔ PairsAgree registry := by
  constructor
  · intro hkept
    -- Either side of a pair whose flags differ can be the one that is asked for.
    have hforward : ∀ a c t u, registry.implied? a = some c → registry.get? a = some t →
        registry.get? c = some u → t.crossesGlossaries = true → u.crossesGlossaries = true := by
      intro a c t u himplied ht hu hcrosses
      by_contra hstays
      exact not_glossaryPolicy_of_pair b { registry := registry } himplied ht hcrosses hu
        (Bool.eq_false_iff.2 hstays)
        (hkept _ (built_twoGlossaries b) (links_twoGlossaries b) 5000 _)
    intro a c t u himplied ht hu
    have hto := hforward a c t u himplied ht hu
    have hfro := hforward c a u t (Registry.implied?_symm himplied) hu ht
    exact Bool.eq_iff_iff.2 ⟨hto, hfro⟩
  · intro hagree s hs hempty timeout requests
    have hhealthy := Healthy.of_built hs hempty
    have hpolicy : GlossaryPolicy registry s := .of_links_empty registry hempty
    let r : Relations := { registry := registry, timeout := timeout }
    have hinvariant : RelationInvariant r.registry fun s : b.State =>
        Healthy s ∧ GlossaryPolicy registry s := relationInvariant_glossaryPolicy hagree
    exact (hinvariant.requests requests s ⟨hhealthy, hpolicy⟩).2

/-- A type that may cross. -/
def feeds : RelationType where
  name := "feeds"
  displayName := "Feeds"
  inverse := some "fedBy"
  color := "#000000"

/-- What it implies backwards may not. -/
def fedBy : RelationType where
  name := "fedBy"
  displayName := "Fed By"
  inverse := some "feeds"
  crossesGlossaries := false
  color := "#000000"

/-- A registry of the two. -/
def feeding : Registry where
  types := [feeds, fedBy]
  defaultName := "feeds"
  accepted := by decide +kernel

/-- A registry is accepted whose policy a single request breaks. -/
theorem glossaryPolicy_not_kept :
    ¬ ∀ (b : Backend) (registry : Registry) (s : b.State), Built s → links s = ∅ →
      ∀ timeout requests, GlossaryPolicy registry
        (runRequests { registry := registry, timeout := timeout } requests s) := by
  intro hkept
  have himplied : feeding.implied? "feeds" = some "fedBy" := by decide +kernel
  have hfeeds : feeding.get? "feeds" = some feeds := by decide +kernel
  have hfedBy : feeding.get? "fedBy" = some fedBy := by decide +kernel
  exact not_glossaryPolicy_of_pair .memory { registry := feeding } himplied hfeeds rfl hfedBy rfl
    (hkept .memory feeding _ (built_twoGlossaries .memory) (links_twoGlossaries .memory) 5000 _)

end Thesaurus
