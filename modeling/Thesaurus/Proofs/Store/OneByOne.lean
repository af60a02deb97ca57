import Thesaurus.Proofs.Store.Backend
import Thesaurus.Proofs.Store.Piecemeal

/-!
# Batches and single writes

Both stores answer batches in a way of their own: the edges to be added are looked at
first, and if there is nothing against any of them, all writes are carried out. By its
general meaning a batch is a loop, in which each write is looked at when its turn comes
and the writes before it have been carried out.

The two agree because what a store has against a write depends on its terms, and
writes of edges leave these alone. So a loop finds nothing else than a look ahead does,
in the same order; only what the loop has carried out before it breaks off is missing
from the batch.

## Main definitions

* `Store.withoutBatches`: a store that leaves batches to their general meaning.
* `StoreM.allOrNothing`: a call that takes back what it wrote when it fails.
* `CheckedStore`: the laws of a store that looks first and then writes.

## Main results

* `CheckedStore.each_of_accepted`, `CheckedStore.each_of_refused`: what a loop comes to.
* `batch_agrees_with_single_writes`: a batch and the loop, on either store.
-/

namespace Thesaurus

/-! ## The general meaning of a batch -/

/-- The call that answers as this one does, but leaves the state as it was when it
fails. -/
def StoreM.allOrNothing {σ α : Type} (act : StoreM σ α) : StoreM σ α :=
  ExceptT.mk fun s =>
    match act.run s with
    | (.ok a, s') => (.ok a, s')
    | (.error fault, _) => (.error fault, s)

namespace Store

variable {σ : Type} [Store σ]

/-- The store that answers every call as this one does, but has no batches of its own. -/
@[reducible] def withoutBatches (σ : Type) [Store σ] : Store σ where
  term := Store.term
  termByName := Store.termByName
  glossary := Store.glossary
  members := Store.members
  addEdge := Store.addEdge
  removeEdge := Store.removeEdge
  edgesFrom := Store.edgesFrom
  edges := Store.edges
  isLive := Store.isLive
  usage := Store.usage

/-- A batch by its general meaning. -/
def applyEach (ops : List EdgeOp) : StoreM σ (List Bool) := (withoutBatches σ).apply ops

theorem applyEach_eq (ops : List EdgeOp) : applyEach (σ := σ) ops = ops.mapM Store.write := by
  show ops.mapM _ = ops.mapM _
  congr 1

theorem applyEach_nil : applyEach (σ := σ) [] = pure [] := by
  rw [applyEach_eq, List.mapM_nil]

theorem applyEach_cons (op : EdgeOp) (rest : List EdgeOp) :
    applyEach (σ := σ) (op :: rest) = do
      let changed ← Store.write op
      let flags ← applyEach rest
      return changed :: flags := by
  rw [applyEach_eq, applyEach_eq, List.mapM_cons]

end Store

/-! ## Stores that look first -/

/-- The laws of a store that looks at a write before it carries it out, and at all
writes of a batch before it carries out the first. -/
class CheckedStore (σ : Type) [Store σ] where
  /-- What there is against a write. -/
  objection? : σ → EdgeOp → Option StoreError
  carryOut : σ → EdgeOp → Bool × σ
  carryOutAll : σ → List EdgeOp → List Bool × σ
  carryOutAll_nil (s : σ) : carryOutAll s [] = ([], s)
  carryOutAll_cons (s : σ) (op : EdgeOp) (rest : List EdgeOp) :
    carryOutAll s (op :: rest) =
      ((carryOut s op).1 :: (carryOutAll (carryOut s op).2 rest).1,
        (carryOutAll (carryOut s op).2 rest).2)
  write_run (s : σ) (op : EdgeOp) :
    (Store.write op).run s =
      match objection? s op with
      | some error => (.error (.refused error), s)
      | none => (.ok (carryOut s op).1, (carryOut s op).2)
  apply_run (s : σ) (ops : List EdgeOp) :
    (Store.apply ops).run s =
      match ops.findSome? (objection? s) with
      | some error => (.error (.refused error), s)
      | none => (.ok (carryOutAll s ops).1, (carryOutAll s ops).2)
  /-- No write of an edge removes or adds an objection. -/
  objection?_carryOut (s : σ) (op : EdgeOp) : objection? (carryOut s op).2 = objection? s

namespace CheckedStore

variable {σ : Type} [Store σ] [CheckedStore σ]

theorem write_of_accepted {s : σ} {op : EdgeOp} (h : objection? s op = none) :
    (Store.write op).run s = (.ok (carryOut s op).1, (carryOut s op).2) := by
  rw [write_run, h]

theorem write_of_refused {s : σ} {op : EdgeOp} {error : StoreError}
    (h : objection? s op = some error) :
    (Store.write op).run s = (.error (.refused error), s) := by
  rw [write_run, h]

/-- A loop over writes that there is nothing against carries out all of them. -/
theorem each_of_accepted (ops : List EdgeOp) :
    ∀ s : σ, ops.findSome? (objection? s) = none →
      (Store.applyEach ops).run s = (.ok (carryOutAll s ops).1, (carryOutAll s ops).2) := by
  induction ops with
  | nil =>
      intro s _
      rw [Store.applyEach_nil, carryOutAll_nil, run_pure]
  | cons op rest ih =>
      intro s h
      have hop : objection? s op = none :=
        List.findSome?_eq_none_iff.1 h op List.mem_cons_self
      have hrest := h
      rw [List.findSome?_cons, hop, ← objection?_carryOut s op] at hrest
      rw [Store.applyEach_cons, carryOutAll_cons, run_bind_ok (write_of_accepted hop),
        run_bind_ok (ih _ hrest), run_pure]

/-- A loop breaks off with the first thing that there is against one of the writes. -/
theorem each_of_refused (ops : List EdgeOp) {error : StoreError} :
    ∀ s : σ, ops.findSome? (objection? s) = some error →
      ∃ s', (Store.applyEach ops).run s = (.error (.refused error), s') := by
  induction ops with
  | nil => intro s h; cases h
  | cons op rest ih =>
      intro s h
      rw [Store.applyEach_cons]
      cases hop : objection? s op with
      | some found =>
          rw [List.findSome?_cons, hop] at h
          obtain rfl := Option.some.inj h
          exact ⟨s, run_bind_error (write_of_refused hop)⟩
      | none =>
          rw [List.findSome?_cons, hop, ← objection?_carryOut s op] at h
          obtain ⟨s', hrest⟩ := ih _ h
          exact ⟨s', by rw [run_bind_ok (write_of_accepted hop), run_bind_error hrest]⟩

/-- A batch comes to what the loop comes to, but leaves nothing behind when it is
refused. -/
theorem apply_run_eq (s : σ) (ops : List EdgeOp) :
    (Store.apply ops).run s = (Store.applyEach ops).allOrNothing.run s := by
  rw [apply_run, StoreM.allOrNothing, ExceptT.run_mk]
  cases h : ops.findSome? (objection? s) with
  | none => rw [each_of_accepted ops s h]
  | some error =>
      obtain ⟨s', hrun⟩ := each_of_refused ops s h
      rw [hrun]

end CheckedStore

/-! ## The two stores -/

instance : CheckedStore TermGraph where
  objection? g
    | .add e => if g.knowsEnds e then none else some (g.unknownEnd e)
    | .remove _ => none
  carryOut := TermGraph.write
  carryOutAll := TermGraph.writeAll
  carryOutAll_nil _ := rfl
  carryOutAll_cons _ _ _ := rfl
  write_run g op := by
    cases op with
    | add e =>
        refine (TermGraph.addEdge_run e g).trans ?_
        by_cases hends : g.knowsEnds e = true
        · simp only [if_pos hends]
        · simp only [if_neg hends]
    | remove e => rfl
  apply_run g ops := TermGraph.apply_run ops g
  objection?_carryOut g op := by
    have hframe := g.rewired_write op
    funext other
    cases other with
    | add e =>
        obtain ⟨edges, hedges⟩ := hframe
        simp only [hedges]
        rfl
    | remove e => rfl

instance : CheckedStore OrderedStore where
  objection? s
    | .add e => s.edgeError? e
    | .remove _ => none
  carryOut := OrderedStore.write
  carryOutAll := OrderedStore.writeAll
  carryOutAll_nil _ := rfl
  carryOutAll_cons _ _ _ := rfl
  write_run s op := by
    cases op with
    | add e => exact OrderedStore.addEdge_run e s
    | remove e => rfl
  apply_run s ops := OrderedStore.apply_run ops s
  objection?_carryOut s op := by
    have hframe := s.rewired_write op
    funext other
    cases other with
    | add e =>
        obtain ⟨edgeKeys, hkeys⟩ := hframe
        simp only [hkeys]
        rfl
    | remove e => rfl

instance : (b : Backend) → CheckedStore b.State
  | .memory => inferInstanceAs (CheckedStore TermGraph)
  | .ordered => inferInstanceAs (CheckedStore OrderedStore)

/-- On either store, in any state whatsoever, a batch answers as the loop over its
writes does, and ends in the same state if all of them are carried out; if the loop
breaks off at one of them, the batch is refused for the same reason and leaves the state
as it was. -/
theorem batch_agrees_with_single_writes (b : Backend) (s : b.State) (ops : List EdgeOp) :
    (Store.apply ops).run s = (Store.applyEach ops).allOrNothing.run s :=
  CheckedStore.apply_run_eq s ops

end Thesaurus
