import Thesaurus.Proofs.Relations.Requests
import Thesaurus.Proofs.Store.Piecemeal

/-!
# Mutations that break off and are tried again

On a store that applies batches piece by piece a mutation can fail between its two
edges. It never leaves the implied edge behind without the edge that was asked
for, and asking again mends what is missing: the first attempt that succeeds leaves
the very edges that one undisturbed request leaves.

## Main definitions

* `Watches`: a computation that leaves the edges alone.
* `Breakable`: what a mutation can come to in one attempt.
* `Retried`: the states after attempts that failed.
* `Converges`: what is left after failures, and after the success that ends them.

## Main results

* `Relations.breakable_add`, `Relations.breakable_remove`: one attempt.
* `Breakable.retried`: any number of attempts that fail.
* `retries_converge`: a request is as good as its first success.
-/

namespace Thesaurus

open Store PiecemealStore

variable {σ : Type} [Store σ] [PiecemealStore σ]

/-! ## Computations that leave the edges alone -/

/-- A computation that never touches the edges and gives results with a property,
if it gives any. -/
def Watches {α : Type} (act : RelationM σ α) (Q : α → Prop) : Prop :=
  ∀ s, Sound s → Sound (act.run s).2 ∧ held (act.run s).2 = held s ∧
    ∀ a, (act.run s).1 = .ok a → Q a

namespace Watches

variable {α β : Type} {Q : α → Prop}

theorem pure {a : α} (h : Q a) : Watches (σ := σ) (Pure.pure a) Q := by
  intro s hs
  refine ⟨hs, rfl, fun b hb => ?_⟩
  obtain rfl := Except.ok.inj hb
  exact h

theorem throw (error : RelationError) : Watches (σ := σ) (MonadExcept.throw error) Q := by
  intro s hs
  exact ⟨hs, rfl, fun a ha => nomatch ha⟩

theorem bind {act : RelationM σ α} {f : α → RelationM σ β} {R : β → Prop} (h : Watches act Q)
    (hf : ∀ a, Q a → Watches (f a) R) : Watches (act >>= f) R := by
  intro s hs
  obtain ⟨hsound, hheld, hresult⟩ := h s hs
  rcases hrun : act.run s with ⟨result, t⟩
  rw [hrun] at hsound hheld hresult
  cases result with
  | error error =>
      rw [run_bind_error hrun]
      exact ⟨hsound, hheld, fun b hb => nomatch hb⟩
  | ok a =>
      obtain ⟨hsound', hheld', hresult'⟩ := hf a (hresult a rfl) t hsound
      rw [run_bind_ok hrun]
      exact ⟨hsound', hheld'.trans hheld, hresult'⟩

/-- A check that may refuse what follows. -/
theorem refuse_if {c : Prop} [Decidable c] {error : RelationError} {f : α → RelationM σ β}
    {act : RelationM σ β} {R : β → Prop} (h : Watches act R) :
    Watches (if c then MonadExcept.throw error >>= f else act) R := by
  split
  · exact (Watches.throw (Q := fun _ => False) error).bind fun a ha => ha.elim
  · exact h

end Watches

namespace Relations

variable (r : Relations)

/-- A call that leaves the edges alone leaves them alone under a time limit. -/
theorem watches_call {α : Type} {act : StoreM σ α}
    (h : ∀ edges, Keeps (fun s => Sound s ∧ held s = edges) act) :
    Watches (r.call act) fun _ => True := by
  intro s hs
  have hkept := h (held s) s ⟨hs, rfl⟩
  rcases hrun : act.run s with ⟨result, t⟩
  rw [hrun] at hkept
  cases result with
  | error fault =>
      rw [r.call_run_error hrun]
      exact ⟨hkept.1, hkept.2, fun _ _ => trivial⟩
  | ok a =>
      rw [r.call_run hrun]
      exact ⟨hkept.1, hkept.2, fun _ _ => trivial⟩

theorem watches_resolveType (name : String) :
    Watches (r.resolveType (σ := σ) name) fun type => type.name = name := by
  unfold resolveType
  cases htype : r.registry.get? name with
  | none => exact Watches.throw _
  | some type => exact Watches.pure (Registry.mem_of_get? htype).2

theorem watches_requireTerm (id : TermId) :
    Watches (r.requireTerm (σ := σ) id) fun _ => True := by
  unfold requireTerm
  refine (r.watches_call (keeps_isLive id)).bind fun live _ => ?_
  cases live with
  | false => exact Watches.throw _
  | true =>
      refine (r.watches_call (keeps_term id)).bind fun found _ => ?_
      cases found with
      | none => exact Watches.throw _
      | some t => exact Watches.pure trivial

/-- Checking a relation leaves the edges alone, whatever fails, and passes no type
but the one of the request. -/
theorem watches_validate (source target : TermId) (type : String) :
    Watches (r.validate (σ := σ) source target type) fun found => found.name = type := by
  unfold validate
  refine (r.watches_resolveType type).bind fun found hname => ?_
  refine (r.watches_requireTerm source).bind fun sourceTerm _ => ?_
  refine (r.watches_requireTerm target).bind fun targetTerm _ => ?_
  exact Watches.refuse_if (Watches.refuse_if (Watches.pure hname))

end Relations

/-! ## One attempt -/

/-- What an attempt can come to: all edges are written, or it fails with no edge
written or with the first one only. -/
def Breakable (act : RelationM σ Outcome) (half whole : Finset Edge → Finset Edge) : Prop :=
  ∀ s, Sound s →
    (∃ o s', act.run s = (.ok o, s') ∧ Sound s' ∧ held s' = whole (held s)) ∨
      ∃ error s', act.run s = (.error error, s') ∧ Sound s' ∧
        (held s' = held s ∨ held s' = half (held s))

/-- Checks before a mutation make no difference to what an attempt can come to. -/
theorem Watches.bind_breakable {α : Type} {act : RelationM σ α} {Q : α → Prop}
    {f : α → RelationM σ Outcome} {half whole : Finset Edge → Finset Edge} (h : Watches act Q)
    (hf : ∀ a, Q a → Breakable (f a) half whole) : Breakable (act >>= f) half whole := by
  intro s hs
  obtain ⟨hsound, hheld, hresult⟩ := h s hs
  rcases hrun : act.run s with ⟨result, t⟩
  rw [hrun] at hsound hheld hresult
  cases result with
  | error error => exact .inr ⟨error, t, run_bind_error hrun, hsound, .inl hheld⟩
  | ok a =>
      have hattempt := hf a (hresult a rfl) t hsound
      rw [hheld] at hattempt
      rw [run_bind_ok hrun]
      exact hattempt

namespace Relations

variable (r : Relations)

/-- A plan has one edge or two, so it can break before the first or the second. -/
theorem breakable_applyPlan (op : Edge → EdgeOp) (e : Edge) :
    Breakable (σ := σ) (r.applyPlan op e) (op e).result
      (batchResult ((e.plan r.registry).map op)) := by
  intro s hs
  unfold applyPlan
  rcases apply_cases ((e.plan r.registry).map op) hs with
    ⟨flags, t, hrun, ht, hheld⟩ | ⟨fault, t, front, broken, back, hrun, ht, hsplit, hheld⟩
  · exact .inl ⟨_, t, run_bind_ok (r.call_run hrun), ht, hheld⟩
  · refine .inr ⟨_, t, run_bind_error (r.call_run_error hrun), ht, ?_⟩
    unfold Edge.plan at hsplit
    cases front with
    | nil => exact .inl hheld
    | cons first rest =>
        rw [List.map_cons, List.cons_append] at hsplit
        obtain ⟨rfl, htail⟩ := List.cons_eq_cons.1 hsplit
        have hrest : rest = [] := by
          have hlength : (e.inverse? r.registry).toList.length = rest.length + (back.length + 1) := by
            simpa using congrArg List.length htail
          have hone : (e.inverse? r.registry).toList.length ≤ 1 := by
            cases e.inverse? r.registry with
            | none => simp
            | some f => simp
          exact List.eq_nil_of_length_eq_zero (by omega)
        subst hrest
        exact .inr hheld

theorem breakable_add (e : Edge) :
    Breakable (σ := σ) (r.add e.source e.target e.type) (insert e)
      (· ∪ (e.plan r.registry).toFinset) := by
  unfold add
  refine (r.watches_validate e.source e.target e.type).bind_breakable fun type hname => ?_
  rw [hname]
  have hattempt := r.breakable_applyPlan (σ := σ) .add e
  rw [funext (batchResult_add (e.plan r.registry))] at hattempt
  exact hattempt

theorem breakable_remove (e : Edge) :
    Breakable (σ := σ) (r.remove e.source e.target e.type) (·.erase e)
      (· \ (e.plan r.registry).toFinset) := by
  unfold remove
  refine (r.watches_resolveType e.type).bind_breakable fun type hname => ?_
  rw [hname]
  have hattempt := r.breakable_applyPlan (σ := σ) .remove e
  rw [funext (batchResult_remove (e.plan r.registry))] at hattempt
  exact hattempt

/-! ### Attempts in which nothing fails -/

theorem applyPlan_of_quiet {op : Edge → EdgeOp} {e : Edge} {s : σ} (hs : Quiet s)
    (hops : ∀ f, .add f ∈ (e.plan r.registry).map op → Known s f.source ∧ Known s f.target) :
    ∃ o s', (r.applyPlan op e).run s = (.ok o, s') := by
  obtain ⟨flags, t, hrun⟩ := apply_of_quiet ((e.plan r.registry).map op) hs hops
  exact ⟨_, t, run_bind_ok (r.call_run hrun)⟩

theorem add_of_quiet {e : Edge} {s : σ} (hs : Quiet s) (he : Addable r.registry s e) :
    ∃ o s', (r.add e.source e.target e.type).run s = (.ok o, s') := by
  obtain ⟨type, hverdict, hname⟩ := r.verdict_of_addable he
  have hvalidate := r.validate_of_readable (readable_of_quiet hs) e.source e.target e.type
  rw [hverdict] at hvalidate
  unfold add
  rw [run_bind_ok hvalidate, hname]
  refine r.applyPlan_of_quiet hs fun f hf => ?_
  obtain ⟨g, hg, hgf⟩ := List.mem_map.1 hf
  obtain rfl := EdgeOp.add.inj hgf
  obtain ⟨hsource, htarget, -⟩ := he.known_of_mem_plan hg
  exact ⟨hsource, htarget⟩

theorem remove_of_quiet {e : Edge} {s : σ} (hs : Quiet s)
    (he : r.registry.contains e.type = true) :
    ∃ o s', (r.remove e.source e.target e.type).run s = (.ok o, s') := by
  obtain ⟨type, htype⟩ := Option.isSome_iff_exists.1 he
  have hresolve := r.resolveType_run s e.type
  rw [htype] at hresolve
  unfold remove
  rw [run_bind_ok hresolve, (Registry.mem_of_get? htype).2]
  refine r.applyPlan_of_quiet hs fun f hf => ?_
  obtain ⟨g, -, hgf⟩ := List.mem_map.1 hf
  cases hgf

end Relations

/-! ## Attempts after attempts -/

/-- The states after attempts that all failed. Between attempts the store may
recover or find new ways to fail, as long as the edges stay. -/
inductive Retried (act : RelationM σ Outcome) : σ → σ → Prop
  | start (s : σ) : Retried act s s
  | failed {s t u v : σ} {error : RelationError} (before : Retried act s t)
      (hrun : act.run t = (.error error, u)) (hsound : Sound v) (hheld : held v = held u) :
      Retried act s v

/-- However often an attempt fails, nothing is written or the first edge only. -/
theorem Breakable.retried {act : RelationM σ Outcome} {half whole : Finset Edge → Finset Edge}
    (h : Breakable act half whole) (hhalf : ∀ edges, half (half edges) = half edges) {s t : σ}
    (hs : Sound s) (ht : Retried act s t) :
    Sound t ∧ (held t = held s ∨ held t = half (held s)) := by
  induction ht with
  | start => exact ⟨hs, .inl rfl⟩
  | failed before hrun hsound hheld ih =>
      obtain ⟨hsound', hbefore⟩ := ih
      refine ⟨hsound, ?_⟩
      rw [hheld]
      rcases h _ hsound' with ⟨o, u', hok, -⟩ | ⟨error', u', herror, -, hafter⟩
      · rw [hok] at hrun
        cases hrun
      · rw [herror] at hrun
        obtain ⟨-, rfl⟩ := Prod.mk.inj hrun
        rcases hafter with hafter | hafter
        · rw [hafter]
          exact hbefore
        · rw [hafter]
          rcases hbefore with hbefore | hbefore
          · exact .inr (congrArg half hbefore)
          · rw [hbefore, hhalf]
            exact .inr rfl

/-- What attempts lead to from a state, given what is left of them when they break
off and when they succeed, and when they would succeed undisturbed. -/
structure Converges (act : RelationM σ Outcome) (s : σ) (valid : σ → Prop)
    (half whole : Finset Edge) : Prop where
  /-- A failure, the first or a later one, leaves the edges or those of half a write. -/
  of_error : ∀ t u error, Retried act s t → act.run t = (.error error, u) →
    held u = held s ∨ held u = half
  /-- The first success completes the write. -/
  of_ok : ∀ t u o, Retried act s t → act.run t = (.ok o, u) → held u = whole
  /-- Where nothing fails a valid request succeeds, at once or on what a failure
  has left, and leaves the same edges. -/
  undisturbed : ∀ t, Sound t → Quiet t → valid t → held t = held s ∨ held t = half →
    ∃ o u, act.run t = (.ok o, u) ∧ held u = whole

theorem Breakable.converges {act : RelationM σ Outcome} {half whole : Finset Edge → Finset Edge}
    {valid : σ → Prop} (h : Breakable act half whole)
    (hhalf : ∀ edges, half (half edges) = half edges)
    (hwhole : ∀ edges, whole (half edges) = whole edges)
    (hvalid : ∀ t, Quiet t → valid t → ∃ o u, act.run t = (.ok o, u)) {s : σ} (hs : Sound s) :
    Converges act s valid (half (held s)) (whole (held s)) := by
  have hok : ∀ t u o, Sound t → (held t = held s ∨ held t = half (held s)) →
      act.run t = (.ok o, u) → held u = whole (held s) := by
    intro t u o ht hheld hrun
    rcases h t ht with ⟨o', u', hrun', -, hafter⟩ | ⟨error, u', hrun', -⟩
    · rw [hrun'] at hrun
      obtain ⟨-, rfl⟩ := Prod.mk.inj hrun
      rw [hafter]
      rcases hheld with hheld | hheld
      · rw [hheld]
      · rw [hheld, hwhole]
    · rw [hrun'] at hrun
      cases hrun
  refine ⟨fun t u error ht hrun => ?_, fun t u o ht hrun => ?_, fun t ht hquiet htvalid hheld => ?_⟩
  · have hsound : Sound u := by
      rcases h t (h.retried hhalf hs ht).1 with ⟨o, u', hrun', -⟩ | ⟨error', u', hrun', hu', -⟩
      · rw [hrun'] at hrun
        cases hrun
      · rw [hrun'] at hrun
        obtain ⟨-, rfl⟩ := Prod.mk.inj hrun
        exact hu'
    exact (h.retried hhalf hs (.failed ht hrun hsound rfl)).2
  · obtain ⟨hsound, hheld⟩ := h.retried hhalf hs ht
    exact hok t u o hsound hheld hrun
  · obtain ⟨o, u, hrun⟩ := hvalid t hquiet htvalid
    exact ⟨o, u, hrun, hok t u o ht hheld hrun⟩

/-- On every store that applies batches piece by piece, whatever calls fail and
whichever edges are stored: adding a relation that fails leaves the edges as they
are, or with the edge of the request; removing one leaves them as they are, or
without that edge. Repeated until it succeeds, a request leaves the edges that an
undisturbed one leaves. -/
theorem retries_converge {σ : Type} [Store σ] [PiecemealStore σ] (r : Relations) (e : Edge)
    (s : σ) (hs : Sound s) :
    Converges (r.add e.source e.target e.type) s (fun t => Addable r.registry t e)
        (insert e (held s)) (held s ∪ (e.plan r.registry).toFinset) ∧
      Converges (r.remove e.source e.target e.type) s (fun _ => r.registry.contains e.type = true)
        ((held s).erase e) (held s \ (e.plan r.registry).toFinset) := by
  have hplan : e ∈ (e.plan r.registry).toFinset := List.mem_toFinset.2 Edge.self_mem_plan
  constructor
  · refine (r.breakable_add e).converges ?_ ?_ (fun t ht he => r.add_of_quiet ht he) hs
    · exact fun edges => Finset.insert_idem e edges
    · intro edges
      rw [Finset.insert_union, Finset.insert_eq_of_mem (Finset.mem_union_right _ hplan)]
  · refine (r.breakable_remove e).converges ?_ ?_ (fun t ht he => r.remove_of_quiet ht he) hs
    · exact fun edges => Finset.erase_idem
    · intro edges
      rw [Finset.erase_sdiff_comm, Finset.erase_eq_of_notMem]
      exact fun hmem => (Finset.mem_sdiff.1 hmem).2 hplan

/-- A store of two terms whose second write of an edge fails. -/
def failingSecondWrite : FailingStore :=
  let glossary : Glossary := { id := ⟨"art"⟩, name := "Art" }
  { graph := ((TermGraph.empty.addGlossary glossary).addTerm
      (.topLevel ⟨"cubism"⟩ glossary "Cubism")).addTerm (.topLevel ⟨"painting"⟩ glossary "Painting")
    outages := [(.addEdge, { remaining := 1, fault := .refused (.unavailable "disk full") })] }

/-- An attempt that breaks off between its two edges is mended by the next one. -/
theorem broader_added_on_retry :
    let r : Relations := { registry := .builtin }
    let e : Edge := { source := ⟨"cubism"⟩, target := ⟨"painting"⟩, type := "broader" }
    let attempt : RelationM FailingStore Outcome := r.add e.source e.target e.type
    let s := failingSecondWrite
    let t := (attempt.run s).2
    let u := (attempt.run { t with outages := [] }).2
    Sound s ∧ held s = ∅ ∧
      (attempt.run s).1 = .error (.unavailable "Store unavailable: disk full") ∧ held t = {e} ∧
      held u = {e, { source := ⟨"painting"⟩, target := ⟨"cubism"⟩, type := "narrower" }} := by
  intro r e attempt s t u
  have hs : Sound s := List.nodup_nil
  obtain ⟨hadd, -⟩ := retries_converge r e s hs
  have hfailed : attempt.run s = (.error (.unavailable "Store unavailable: disk full"), t) := by
    rfl
  have hretried : Retried attempt s { t with outages := [] } :=
    .failed (.start s) hfailed (List.nodup_singleton e) rfl
  have hmended : attempt.run { t with outages := [] } =
      (.ok { edges := e.plan r.registry, changed := 1 }, u) := by
    rfl
  have hwhole : held u = held s ∪ (e.plan r.registry).toFinset :=
    hadd.of_ok _ u _ hretried hmended
  refine ⟨hs, rfl, congrArg Prod.fst hfailed, rfl, ?_⟩
  rw [hwhole]
  rfl

end Thesaurus
