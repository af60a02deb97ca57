import Thesaurus.Proofs.Computation
import Thesaurus.Proofs.Store.Usage
import Thesaurus.Proofs.Wholes
import Thesaurus.Store.Basic

/-!
# Registries in place of others

A registry gives way to another one unless a type would go of which there are edges.
The check goes by names alone. So the types of all edges stay registered, but what
they imply may change: a type that stays may become symmetric or be paired with
another type, and then the edges from before lack what they imply from then on.

## Main definitions

* `Registered`: the types of edges are registered.
* `ImplyNothingNew`: edges that imply under one registry only what they imply under
  another.

## Main results

* `Registry.replace_eq_ok_iff`: when a registry gives way.
* `Registered.replace`: the types of edges stay registered.
* `inverseClosed_after_replacement`: when edges stay stored with what they imply.
-/

namespace Thesaurus

/-- The types of these edges are registered. -/
def Registered (r : Registry) (edges : Finset Edge) : Prop :=
  ∀ e ∈ edges, r.contains e.type = true

/-- Whatever these edges imply under the second registry, they imply under the
first. -/
def ImplyNothingNew (r r' : Registry) (edges : Finset Edge) : Prop :=
  ∀ e ∈ edges, ∀ type, r'.implied? e.type = some type → r.implied? e.type = some type

/-! ## Counts -/

theorem countOf_countTypes (edges : List Edge) (type : String) :
    (countTypes edges).countOf type = (edges.map (·.type)).count type := by
  unfold Table.countOf
  rw [get?_countTypes]
  by_cases hcount : (edges.map (·.type)).count type = 0
  · rw [if_pos hcount, hcount]
    rfl
  · rw [if_neg hcount]
    rfl

/-- A type is counted exactly when there is an edge of it. -/
theorem countOf_countTypes_ne_zero_iff {edges : List Edge} {type : String} :
    (countTypes edges).countOf type ≠ 0 ↔ ∃ e ∈ edges, e.type = type := by
  rw [countOf_countTypes, ← Nat.pos_iff_ne_zero, List.count_pos_iff, List.mem_map]

/-! ## When a registry gives way -/

namespace Registry

variable {r r' : Registry} {types : List RelationType} {defaultName : String}
  {usage : String → Nat}

theorem droppedInUse?_eq_none_iff :
    r.droppedInUse? types usage = none ↔
      ∀ name, r.contains name = true → usage name ≠ 0 → (findType? types name).isSome = true := by
  unfold droppedInUse?
  rw [Option.map_eq_none_iff, List.find?_eq_none]
  constructor
  · intro h name hname husage
    obtain ⟨t, ht⟩ := Option.isSome_iff_exists.1 hname
    obtain ⟨hmem, rfl⟩ := mem_of_get? ht
    have hkept : ¬ ((findType? types t.name).isNone && usage t.name != 0) = true := h t hmem
    simpa [husage, Option.isSome_iff_ne_none] using hkept
  · intro h t ht hdropped
    have hname : r.contains t.name = true := Option.isSome_iff_exists.2 ⟨t, get?_of_mem ht⟩
    simp only [Bool.and_eq_true, bne_iff_ne] at hdropped
    have hkept := h t.name hname hdropped.2
    rw [Option.isNone_iff_eq_none.1 hdropped.1] at hkept
    cases hkept

/-- A registry gives way exactly to what is accepted and leaves out nothing in use. -/
theorem replace_eq_ok_iff :
    r.replace types defaultName usage = .ok r' ↔
      ofTypes types defaultName = .ok r' ∧
        ∀ name, r.contains name = true → usage name ≠ 0 → r'.contains name = true := by
  have hcontains : ofTypes types defaultName = .ok r' →
      ∀ name, r'.contains name = (findType? types name).isSome := by
    intro h name
    rw [contains, get?, types_of_ofTypes h]
  unfold replace
  cases hdropped : r.droppedInUse? types usage with
  | none =>
      have hkept := droppedInUse?_eq_none_iff.1 hdropped
      constructor
      · intro h
        refine ⟨h, fun name hname husage => ?_⟩
        rw [hcontains h]
        exact hkept name hname husage
      · exact fun h => h.1
  | some error =>
      constructor
      · intro h
        cases h
      · rintro ⟨h, hkept⟩
        have hnone : r.droppedInUse? types usage = none := by
          refine droppedInUse?_eq_none_iff.2 fun name hname husage => ?_
          rw [← hcontains h]
          exact hkept name hname husage
        rw [hdropped] at hnone
        cases hnone

/-- What the registry of a store gives way to is accepted on its own. -/
theorem ofTypes_of_replaceOver {σ : Type} [Store σ] {s s' : σ}
    (h : (r.replaceOver types defaultName).run s = (.ok r', s')) :
    ofTypes types defaultName = .ok r' := by
  obtain ⟨counts, _, -, hreplace⟩ := run_bind_eq_ok_iff.1 h
  replace hreplace : (r.replace types defaultName counts.countOf).mapError
      ReplacementError.registry = .ok r' := congrArg Prod.fst hreplace
  exact (replace_eq_ok_iff.1 (mapError_eq_ok_iff.1 hreplace)).1

end Registry

/-! ## Edges under the other registry -/

variable {r r' : Registry} {types : List RelationType} {defaultName : String}

theorem Registered.replace {edges : List Edge} (h : Registered r edges.toFinset)
    (hreplace : r.replace types defaultName (countTypes edges).countOf = .ok r') :
    Registered r' edges.toFinset := by
  intro e he
  have hused : (countTypes edges).countOf e.type ≠ 0 :=
    countOf_countTypes_ne_zero_iff.2 ⟨e, List.mem_toFinset.1 he, rfl⟩
  exact (Registry.replace_eq_ok_iff.1 hreplace).2 e.type (h e he) hused

theorem InverseClosed.of_implyNothingNew {edges : Finset Edge} (h : InverseClosed r edges)
    (hnew : ImplyNothingNew r r' edges) : InverseClosed r' edges := by
  intro e he f hf
  obtain ⟨htype, hends⟩ := Edge.inverse?_eq_some_iff.1 hf
  exact h e he f (Edge.inverse?_eq_some_iff.2 ⟨hnew e he f.type htype, hends⟩)

/-- A relation between different terms is not whole any more once its type implies
something new. -/
theorem not_inverseClosed_whole {e : Edge} {type : String} (hends : e.source ≠ e.target)
    (hnew : r'.implied? e.type = some type) (hold : r.implied? e.type ≠ some type) :
    ¬ InverseClosed r' (e.whole r) := by
  intro h
  have hmem := h e Edge.self_mem_whole { source := e.target, target := e.source, type := type }
    (Edge.inverse?_eq_some_iff.2 ⟨hnew, rfl, rfl⟩)
  rcases Edge.mem_plan.1 (List.mem_toFinset.1 hmem) with heq | hinverse
  · exact hends (congrArg Edge.source heq).symm
  · exact hold (Edge.inverse?_eq_some_iff.1 hinverse).1

/-- A relation does not stand in the way of a registry in which its types stay. -/
theorem replace_eq_ok_of_plan {e : Edge} (h : Registry.ofTypes types defaultName = .ok r')
    (htype : r'.contains e.type = true)
    (hback : ∀ type, r.implied? e.type = some type → r'.contains type = true) :
    r.replace types defaultName (countTypes (e.plan r)).countOf = .ok r' := by
  refine Registry.replace_eq_ok_iff.2 ⟨h, fun name _ husage => ?_⟩
  obtain ⟨f, hf, rfl⟩ := countOf_countTypes_ne_zero_iff.1 husage
  rcases Edge.mem_plan.1 hf with rfl | hinverse
  · exact htype
  · exact hback f.type (Edge.inverse?_eq_some_iff.1 hinverse).1

theorem registered_plan {e : Edge} (h : r.contains e.type = true) :
    Registered r (e.plan r).toFinset :=
  fun _ hf => Edge.contains_type_of_mem_plan h (List.mem_toFinset.1 hf)

/-- When a registry gives way to another one that leaves out no type in use, the types
of all edges stay registered. The edges stay stored with what they imply if their types
come to imply nothing new. No less will do: a type that may stay in use and comes to
imply something new has, between any two terms, a relation that was whole and is not. -/
theorem inverseClosed_after_replacement (r : Registry) (types : List RelationType)
    (defaultName : String) (r' : Registry) :
    (∀ edges : List Edge, Registered r edges.toFinset → InverseClosed r edges.toFinset →
      r.replace types defaultName (countTypes edges).countOf = .ok r' →
        Registered r' edges.toFinset ∧
          (ImplyNothingNew r r' edges.toFinset → InverseClosed r' edges.toFinset)) ∧
      (Registry.ofTypes types defaultName = .ok r' →
        ∀ e : Edge, e.source ≠ e.target → r.contains e.type = true →
          (∀ f ∈ e.plan r, r'.contains f.type = true) → ¬ ImplyNothingNew r r' {e} →
            Registered r (e.plan r).toFinset ∧ InverseClosed r (e.plan r).toFinset ∧
              r.replace types defaultName (countTypes (e.plan r)).countOf = .ok r' ∧
                ¬ InverseClosed r' (e.plan r).toFinset) := by
  constructor
  · intro edges hregistered hclosed hreplace
    exact ⟨hregistered.replace hreplace, hclosed.of_implyNothingNew⟩
  · intro htypes e hends hcontains hkept hnew
    have hback : ∀ type, r.implied? e.type = some type → r'.contains type = true := by
      intro type htype
      refine hkept { source := e.target, target := e.source, type := type } ?_
      exact Edge.mem_plan.2 (.inr (Edge.inverse?_eq_some_iff.2 ⟨htype, rfl, rfl⟩))
    refine ⟨registered_plan hcontains, .whole r e, ?_, ?_⟩
    · exact replace_eq_ok_of_plan htypes (hkept e Edge.self_mem_plan) hback
    · unfold ImplyNothingNew at hnew
      simp only [Finset.mem_singleton, forall_eq, not_forall] at hnew
      obtain ⟨type, himplied, hold⟩ := hnew
      exact not_inverseClosed_whole hends himplied hold

/-! ## Links to read alongside -/

/-- The registry of the one type `seeAlso`, whose links lead one way or both ways. -/
def seeAlsoOnly (bothWays : Bool) : Registry where
  types := [{ name := "seeAlso", displayName := "See Also", color := "#667085"
              isSymmetric := bothWays }]
  defaultName := "seeAlso"
  accepted := by cases bothWays <;> decide +kernel

/-- A link of the type that every project starts with. -/
def cubismSeePainting : Edge :=
  { source := ⟨"cubism"⟩, target := ⟨"painting"⟩, type := "seeAlso" }

/-- The link does not stand in the way of the registry of its type alone. -/
theorem builtin_replace_seeAlsoOnly (bothWays : Bool) :
    Registry.builtin.replace (seeAlsoOnly bothWays).types (seeAlsoOnly bothWays).defaultName
      (countTypes (cubismSeePainting.plan .builtin)).countOf = .ok (seeAlsoOnly bothWays) := by
  refine replace_eq_ok_of_plan (Registry.ofTypes_types _) ?_ ?_
  · cases bothWays <;> decide +kernel
  · intro type htype
    have hnone : Registry.builtin.implied? cubismSeePainting.type = none := by decide +kernel
    rw [hnone] at htype
    cases htype

/-- As long as its links lead one way, they stay whole; once they lead both ways, the
link from before is not whole any more. -/
theorem seeAlso_whole_one_way :
    let edges := cubismSeePainting.plan .builtin
    Registered (seeAlsoOnly false) edges.toFinset ∧
      InverseClosed (seeAlsoOnly false) edges.toFinset ∧
        ¬ InverseClosed (seeAlsoOnly true) edges.toFinset := by
  intro edges
  have hregistered : Registered .builtin edges.toFinset := registered_plan (by decide +kernel)
  obtain ⟨hkept, -⟩ := inverseClosed_after_replacement .builtin (seeAlsoOnly false).types
    (seeAlsoOnly false).defaultName (seeAlsoOnly false)
  obtain ⟨-, hbroken⟩ := inverseClosed_after_replacement .builtin (seeAlsoOnly true).types
    (seeAlsoOnly true).defaultName (seeAlsoOnly true)
  obtain ⟨hstays, hclosed⟩ := hkept edges hregistered (.whole .builtin cubismSeePainting)
    (builtin_replace_seeAlsoOnly false)
  refine ⟨hstays, hclosed ?_, ?_⟩
  · have htypes : ∀ e ∈ edges.toFinset, (seeAlsoOnly false).implied? e.type = none := by
      decide +kernel
    intro e he type himplied
    rw [htypes e he] at himplied
    cases himplied
  · refine (hbroken (Registry.ofTypes_types _) cubismSeePainting (by decide) (by decide +kernel)
      (by decide +kernel) fun hnew => ?_).2.2.2
    have hold := hnew cubismSeePainting (Finset.mem_singleton_self _) "seeAlso" (by decide +kernel)
    exact absurd hold (by decide +kernel)

/-- Replacing the types does not keep relations whole by itself: the check does not
look at what the types that stay imply. -/
theorem inverseClosed_not_kept :
    ¬ ∀ (r : Registry) (edges : List Edge) (types : List RelationType) (defaultName : String)
        (r' : Registry), Registered r edges.toFinset → InverseClosed r edges.toFinset →
          r.replace types defaultName (countTypes edges).countOf = .ok r' →
            InverseClosed r' edges.toFinset := by
  intro h
  have hregistered : Registered .builtin (cubismSeePainting.plan .builtin).toFinset :=
    registered_plan (by decide +kernel)
  have hclosed := h .builtin _ _ _ _ hregistered (.whole .builtin cubismSeePainting)
    (builtin_replace_seeAlsoOnly true)
  have hnew : (seeAlsoOnly true).implied? "seeAlso" = some "seeAlso" := by decide +kernel
  have hold : Registry.builtin.implied? "seeAlso" ≠ some "seeAlso" := by decide +kernel
  exact not_inverseClosed_whole (e := cubismSeePainting) (by decide) hnew hold hclosed

end Thesaurus
