import Thesaurus.Proofs.Relations.Requests

/-!
# Mutations as data

Adding and removing relations as values, so that theorems can speak of sequences of
them. Whether a mutation is accepted depends on the registry and the terms alone,
and no mutation touches a term. So a sequence is answered, and changes the edges,
as can be read off the first state by a fold over sets of edges.

## Main definitions

* `Mutation`: adding or removing a relation.
* `Mutation.answer`, `Mutation.edgesAfter`: what it should come to.
* `runMutations`: a sequence of mutations with its answers.

## Main results

* `Mutation.run_eq`: one mutation.
* `runMutations_spec`: a sequence.
-/

namespace Thesaurus

open Store LawfulStore

/-- Adding or removing the relation of an edge. -/
inductive Mutation
  | add (e : Edge)
  | remove (e : Edge)
deriving DecidableEq, Repr

namespace Mutation

/-- The edge that is asked for. -/
def edge : Mutation → Edge
  | .add e => e
  | .remove e => e

/-- Whether the relation should be there afterwards. -/
def adds : Mutation → Bool
  | .add _ => true
  | .remove _ => false

/-- The answer to a mutation, and the state it leaves. -/
def run {σ : Type} [Store σ] (r : Relations) (m : Mutation) (s : σ) :
    Except RelationError Outcome × σ :=
  match m with
  | .add e => (r.add e.source e.target e.type).run s
  | .remove e => (r.remove e.source e.target e.type).run s

/-- The edges after a mutation that is accepted. -/
def result (registry : Registry) : Mutation → Finset Edge → Finset Edge
  | .add e, edges => edges ∪ (e.plan registry).toFinset
  | .remove e, edges => edges \ (e.plan registry).toFinset

/-- The planned edges are all there or all gone, and the others are as before. -/
theorem mem_result {registry : Registry} {m : Mutation} {edges : Finset Edge} {f : Edge} :
    f ∈ m.result registry edges ↔
      if f ∈ m.edge.plan registry then m.adds = true else f ∈ edges := by
  cases m with
  | add e => by_cases hf : f ∈ e.plan registry <;> simp [result, edge, adds, hf]
  | remove e => by_cases hf : f ∈ e.plan registry <;> simp [result, edge, adds, hf]

/-! ## What a mutation should come to -/

section Reading

variable {σ : Type} [Store σ] (r : Relations) (s : σ)

/-- Why a mutation is refused. -/
def refusal? : Mutation → Option RelationError
  | .add e =>
    match r.verdict s e.source e.target e.type with
    | .error error => some error
    | .ok _ => none
  | .remove e => if r.registry.contains e.type then none else some (.invalidType e.type)

/-- The edges after a mutation. -/
def edgesAfter (edges : Finset Edge) (m : Mutation) : Finset Edge :=
  if (m.refusal? r s).isSome then edges else m.result r.registry edges

/-- The answer to a mutation. -/
def answer (edges : Finset Edge) (m : Mutation) : Except RelationError Outcome :=
  match m.refusal? r s with
  | some error => .error error
  | none => .ok {
      edges := m.edge.plan r.registry
      changed := (symmDiff edges (m.result r.registry edges)).card }

variable {s} {s' : σ}

theorem refusal?_of_sameTerms (h : SameTerms s s') (m : Mutation) :
    m.refusal? r s' = m.refusal? r s := by
  cases m with
  | add e => rw [refusal?, refusal?, r.verdict_of_sameTerms h]
  | remove e => rfl

theorem edgesAfter_of_sameTerms (h : SameTerms s s') (edges : Finset Edge) (m : Mutation) :
    m.edgesAfter r s' edges = m.edgesAfter r s edges := by
  simp only [edgesAfter, refusal?_of_sameTerms r h]

theorem answer_of_sameTerms (h : SameTerms s s') (edges : Finset Edge) (m : Mutation) :
    m.answer r s' edges = m.answer r s edges := by
  simp only [answer, refusal?_of_sameTerms r h]

end Reading

variable {σ : Type} [EditableStore σ] [LawfulStore σ] (r : Relations) {s : σ}

/-- A mutation that is refused gives its error and leaves the state as it is. -/
theorem run_of_refused {m : Mutation} {error : RelationError} (h : m.refusal? r s = some error) :
    m.run r s = (.error error, s) := by
  cases m with
  | add e =>
      have hvalidate := r.validate_run s e.source e.target e.type
      cases hverdict : r.verdict s e.source e.target e.type with
      | ok type => simp [refusal?, hverdict] at h
      | error found =>
          obtain rfl : found = error := by simpa [refusal?, hverdict] using h
          rw [hverdict] at hvalidate
          exact run_bind_error hvalidate
  | remove e =>
      cases hcontains : r.registry.contains e.type with
      | true => simp [refusal?, hcontains] at h
      | false =>
          obtain rfl : RelationError.invalidType e.type = error := by
            simpa [refusal?, hcontains] using h
          exact r.remove_of_not_contains s hcontains

/-- A mutation that is not refused leads to its result. -/
theorem run_of_accepted (hs : Healthy s) {m : Mutation} (h : m.refusal? r s = none) :
    ∃ s', m.run r s = (m.answer r s (links s), s') ∧
      Relinked s s' (m.result r.registry (links s)) := by
  rw [answer, h]
  cases m with
  | add e =>
      have haddable : Addable r.registry s e := by
        cases hverdict : r.verdict s e.source e.target e.type with
        | error error => simp [refusal?, hverdict] at h
        | ok type => exact r.addable_of_verdict hverdict
      exact r.add_of_addable hs haddable
  | remove e =>
      have hcontains : r.registry.contains e.type = true := by
        by_contra hnot
        simp [refusal?, hnot] at h
      exact r.remove_of_contains hs hcontains

/-- A mutation is answered, and changes the edges, as the terms and the edges say. -/
theorem run_eq (hs : Healthy s) (m : Mutation) :
    ∃ s', m.run r s = (m.answer r s (links s), s') ∧
      Relinked s s' (m.edgesAfter r s (links s)) := by
  cases hrefusal : m.refusal? r s with
  | some error =>
      refine ⟨s, ?_, ?_⟩
      · rw [run_of_refused r hrefusal, answer, hrefusal]
      · simp only [edgesAfter, hrefusal, Option.isSome_some, if_true]
        exact ⟨rfl, .refl s, hs⟩
  | none =>
      have haccepted := run_of_accepted r hs hrefusal
      simpa [edgesAfter, hrefusal] using haccepted

end Mutation

/-! ## Sequences -/

/-- The answers to mutations that are made one after the other, and the state that
they leave. -/
def runMutations {σ : Type} [Store σ] (r : Relations) :
    List Mutation → σ → List (Except RelationError Outcome) × σ
  | [], s => ([], s)
  | m :: rest, s =>
    let (answer, s) := m.run r s
    let (answers, s) := runMutations r rest s
    (answer :: answers, s)

/-- The edges after mutations that are made one after the other. -/
def edgesAfterAll {σ : Type} [Store σ] (r : Relations) (s : σ) (mutations : List Mutation)
    (edges : Finset Edge) : Finset Edge :=
  mutations.foldl (Mutation.edgesAfter r s) edges

/-- The terms stay what they are, so every mutation is answered by what those before
it made of the edges. -/
theorem runMutations_spec {σ : Type} [EditableStore σ] [LawfulStore σ] (r : Relations)
    (mutations : List Mutation) :
    ∀ {s : σ}, Healthy s →
      links (runMutations r mutations s).2 = edgesAfterAll r s mutations (links s) ∧
        ∀ i : Nat, (runMutations r mutations s).1[i]? = mutations[i]?.map fun m =>
          m.answer r s (edgesAfterAll r s (mutations.take i) (links s)) := by
  induction mutations with
  | nil => intro s _; exact ⟨rfl, fun i => rfl⟩
  | cons m rest ih =>
      intro s hs
      obtain ⟨s', hrun, hrelinked⟩ := m.run_eq r hs
      -- the first mutation leaves the terms alone, so the others are judged as before it
      have hafter : Mutation.edgesAfter r s' = Mutation.edgesAfter r s := by
        funext edges n
        exact n.edgesAfter_of_sameTerms r hrelinked.sameTerms edges
      have hanswer : ∀ edges (n : Mutation), n.answer r s' edges = n.answer r s edges :=
        fun edges n => n.answer_of_sameTerms r hrelinked.sameTerms edges
      obtain ⟨hlinks, hanswers⟩ := ih hrelinked.healthy
      simp only [edgesAfterAll, hafter, hanswer, hrelinked.links_eq] at hlinks hanswers
      have hcons : runMutations r (m :: rest) s =
          (m.answer r s (links s) :: (runMutations r rest s').1, (runMutations r rest s').2) := by
        simp only [runMutations, hrun]
      rw [hcons]
      refine ⟨hlinks, fun i => ?_⟩
      cases i with
      | zero => rfl
      | succ i => exact hanswers i

end Thesaurus
