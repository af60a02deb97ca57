/-!
# Computations that can fail over a state

Requests are computations that read and write a store and can break off with an
error. The state survives the error, so a run always ends in a pair of a result
and a state. This file says how runs compose, and which computations keep a
property of states whatever their result is.

## Main definitions

* `Keeps`: a property that holds before a run holds after it, failed or not.

## Main results

* `run_bind_ok`, `run_bind_error`, `run_bind_eq_ok_iff`: runs of a composition.
* `run_mapM_ok`, `run_foldlM_ok`: runs of loops whose steps only look.
* `Keeps.bind`, `Keeps.mapM`: a property is kept by what is made of keeping parts.
-/

namespace Thesaurus

variable {σ ε α β : Type}

/-! ## Runs -/

theorem run_pure (a : α) (s : σ) : (pure a : ExceptT ε (StateM σ) α).run s = (.ok a, s) := rfl

/-- A computation that begins by reading the state. -/
theorem run_get_bind (f : σ → ExceptT ε (StateM σ) α) (s : σ) :
    (get >>= f : ExceptT ε (StateM σ) α).run s = (f s).run s := rfl

theorem run_bind (act : ExceptT ε (StateM σ) α) (f : α → ExceptT ε (StateM σ) β) (s : σ) :
    (act >>= f).run s =
      match act.run s with
      | (.ok a, s') => (f a).run s'
      | (.error e, s') => (.error e, s') := by
  show (ExceptT.bindCont f (act.run s).1) (act.run s).2 = _
  rcases act.run s with ⟨result, s'⟩
  cases result with
  | ok a => rfl
  | error e => rfl

theorem run_bind_ok {act : ExceptT ε (StateM σ) α} {f : α → ExceptT ε (StateM σ) β} {s s' : σ}
    {a : α} (h : act.run s = (.ok a, s')) : (act >>= f).run s = (f a).run s' := by
  rw [run_bind, h]

theorem run_bind_error {act : ExceptT ε (StateM σ) α} {f : α → ExceptT ε (StateM σ) β} {s s' : σ}
    {e : ε} (h : act.run s = (.error e, s')) : (act >>= f).run s = (.error e, s') := by
  rw [run_bind, h]

/-- What a composition comes to, its parts come to. -/
theorem bind_eq_ok_iff {x : Except ε α} {f : α → Except ε β} {b : β} :
    (x >>= f) = .ok b ↔ ∃ a, x = .ok a ∧ f a = .ok b := by
  cases x with
  | error e =>
      constructor
      · intro h
        cases h
      · rintro ⟨a, h, -⟩
        cases h
  | ok a =>
      constructor
      · intro h
        exact ⟨a, rfl, h⟩
      · rintro ⟨_, heq, h⟩
        cases heq
        exact h

/-- The same for runs. -/
theorem run_bind_eq_ok_iff {act : ExceptT ε (StateM σ) α} {f : α → ExceptT ε (StateM σ) β}
    {s s' : σ} {b : β} : (act >>= f).run s = (.ok b, s') ↔
      ∃ a s'', act.run s = (.ok a, s'') ∧ (f a).run s'' = (.ok b, s') := by
  rw [run_bind]
  rcases act.run s with ⟨result, s''⟩
  cases result with
  | error e =>
      constructor
      · intro h
        cases h
      · rintro ⟨a, t, h, -⟩
        cases h
  | ok a =>
      constructor
      · intro h
        exact ⟨a, s'', rfl, h⟩
      · rintro ⟨_, _, heq, h⟩
        cases heq
        exact h

/-- Under another name for its errors a computation succeeds just the same. -/
theorem mapError_eq_ok_iff {ε' : Type} {x : Except ε α} {f : ε → ε'} {a : α} :
    x.mapError f = .ok a ↔ x = .ok a := by
  cases x with
  | error e =>
      constructor
      · intro h
        cases h
      · intro h
        cases h
  | ok b =>
      constructor
      · intro h
        cases h
        rfl
      · intro h
        cases h
        rfl

theorem run_adapt_eq_ok_iff {ε' : Type} {act : ExceptT ε (StateM σ) α} {f : ε → ε'} {s s' : σ}
    {a : α} : (ExceptT.adapt f act).run s = (.ok a, s') ↔ act.run s = (.ok a, s') := by
  show ((act.run s).1.mapError f, (act.run s).2) = _ ↔ _
  rw [Prod.ext_iff, Prod.ext_iff, mapError_eq_ok_iff]

/-- A run ends in its result and in the state it leads to. -/
theorem run_of_result {act : ExceptT ε (StateM σ) α} {s : σ} {result : Except ε α}
    (h : (act.run s).1 = result) : act.run s = (result, (act.run s).2) :=
  Prod.ext h rfl

/-- A loop whose steps look up a value each gives the list of the values. -/
theorem run_mapM_ok {f : α → ExceptT ε (StateM σ) β} {g : α → β} {s : σ} (l : List α)
    (h : ∀ a ∈ l, (f a).run s = (.ok (g a), s)) : (l.mapM f).run s = (.ok (l.map g), s) := by
  induction l with
  | nil => rw [List.mapM_nil, run_pure, List.map_nil]
  | cons a rest ih =>
      have hrest := ih fun b hb => h b (List.mem_cons_of_mem a hb)
      rw [List.mapM_cons, run_bind_ok (h a List.mem_cons_self), run_bind_ok hrest, run_pure,
        List.map_cons]

/-- A loop whose steps change what they carry and only look at the state is a fold. -/
theorem run_foldlM_ok {f : β → α → ExceptT ε (StateM σ) β} {g : β → α → β} {s : σ} (l : List α)
    (h : ∀ b, ∀ a ∈ l, (f b a).run s = (.ok (g b a), s)) :
    ∀ b, (l.foldlM f b).run s = (.ok (l.foldl g b), s) := by
  induction l with
  | nil => intro b; rw [List.foldlM_nil, run_pure, List.foldl_nil]
  | cons a rest ih =>
      intro b
      have hrest := ih (fun c d hd => h c d (List.mem_cons_of_mem a hd)) (g b a)
      rw [List.foldlM_cons, run_bind_ok (h b a List.mem_cons_self), hrest, List.foldl_cons]

/-! ## Properties of states that are kept -/

/-- A computation that leads from states with a property to such states, also when
it fails. -/
def Keeps (P : σ → Prop) (act : ExceptT ε (StateM σ) α) : Prop := ∀ s, P s → P (act.run s).2

namespace Keeps

variable {P : σ → Prop}

theorem of_looking {act : ExceptT ε (StateM σ) α} (h : ∀ s, (act.run s).2 = s) :
    Keeps P act := by
  intro s hs
  rw [h]
  exact hs

/-- Whatever ends in the same states keeps the same properties. -/
theorem of_same_states {ε' : Type} {act : ExceptT ε (StateM σ) α} {act' : ExceptT ε' (StateM σ) β}
    (h : Keeps P act) (hsame : ∀ s, (act'.run s).2 = (act.run s).2) : Keeps P act' := by
  intro s hs
  rw [hsame]
  exact h s hs

theorem pure (a : α) : Keeps P (Pure.pure a : ExceptT ε (StateM σ) α) := fun _ hs => hs

theorem throw (e : ε) : Keeps P (MonadExcept.throw e : ExceptT ε (StateM σ) α) := fun _ hs => hs

theorem bind {act : ExceptT ε (StateM σ) α} {f : α → ExceptT ε (StateM σ) β} (h : Keeps P act)
    (hf : ∀ a, Keeps P (f a)) : Keeps P (act >>= f) := by
  intro s hs
  have hact := h s hs
  cases hrun : act.run s with
  | mk result s' =>
      rw [hrun] at hact
      cases result with
      | ok a => rw [run_bind_ok hrun]; exact hf a s' hact
      | error e => rw [run_bind_error hrun]; exact hact

theorem adapt {ε' : Type} {act : ExceptT ε (StateM σ) α} (h : Keeps P act) (f : ε → ε') :
    Keeps P (ExceptT.adapt f act) := by
  refine h.of_same_states fun s => ?_
  rfl

theorem mapM {f : α → ExceptT ε (StateM σ) β} (l : List α) (h : ∀ a ∈ l, Keeps P (f a)) :
    Keeps P (l.mapM f) := by
  induction l with
  | nil => rw [List.mapM_nil]; exact Keeps.pure _
  | cons a rest ih =>
      have hrest := ih fun b hb => h b (List.mem_cons_of_mem a hb)
      rw [List.mapM_cons]
      exact (h a List.mem_cons_self).bind fun _ => hrest.bind fun _ => Keeps.pure _

theorem foldlM {f : β → α → ExceptT ε (StateM σ) β} (l : List α)
    (h : ∀ b, ∀ a ∈ l, Keeps P (f b a)) : ∀ b, Keeps P (l.foldlM f b) := by
  induction l with
  | nil => intro b; rw [List.foldlM_nil]; exact Keeps.pure _
  | cons a rest ih =>
      intro b
      rw [List.foldlM_cons]
      exact (h b a List.mem_cons_self).bind
        (ih fun c d hd => h c d (List.mem_cons_of_mem a hd))

end Keeps

end Thesaurus
