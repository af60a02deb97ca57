import Thesaurus.Proofs.Relations.AnyEdges
import Thesaurus.Sheet.Import

/-!
# Importing one row

What a row should come to is said without any writing: the first problem among its
entries, or else the edges that its entries ask for. An import of the row does just
that. Checks depend on terms only and additions change no terms, so what has been
checked for all entries stays true while they are written, and no write can fail.

Nothing is asked of the stored edges. Where they hold what they imply, the relations that
a row is said to add are those that are there after it and were not before.

## Main definitions

* `Store.named`: the live term that a fully qualified name leads to.
* `Relations.rowProblem?`: the first thing that is wrong with a row.
* `Relations.rowEdges`: the edges that a row asks for.
* `RowExact`: what an import of a row should come to.
* `Grown`: a state with the relations of some edges besides its own.

## Main results

* `Relations.checkEntries_cases`: all entries are checked before anything is written.
* `Relations.addEdges_run`: edges that have passed their checks are all added.
* `Relations.importRow_cases`: an import of a row, whatever is stored.
* `Relations.importRow_exact`: an import of a row is exact.
-/

namespace Thesaurus

open Store LawfulStore

/-! ## What a row should come to -/

section Reading

variable {σ : Type} [Store σ]

/-- The live term that a fully qualified name leads to. -/
def Store.named (s : σ) (name : String) : Option Term :=
  ((Store.termByName name).answer? s).join.bind Term.live?

theorem Store.SameTerms.named_eq {s s' : σ} (h : SameTerms s s') (name : String) :
    named s' name = named s name := by
  rw [named, h.termByName, named]

namespace Relations

variable (r : Relations)

/-- What is wrong with an entry in a row of this source: its target is unknown, or
the relation is refused. -/
def entryProblem? (s : σ) (source : TermId) (entry : CellEntry) (raw : List Char) :
    Option RowProblem :=
  match named s entry.target with
  | none =>
    match Cell.unknownType? r.registry raw with
    | some name => some (.unknownType name)
    | none => some (.unknownTerm entry.target)
  | some target =>
    match ((r.validate source target.id entry.type).run s).1 with
    | .error error => some (.refused error)
    | .ok _ => none

/-- The edge that an entry asks for. -/
def entryEdge? (s : σ) (source : TermId) (entry : CellEntry) : Option Edge :=
  (named s entry.target).map fun target =>
    { source := source, target := target.id, type := entry.type }

/-- The first thing that is wrong with a row: its source is unknown, or something
is wrong with an entry of its cell. -/
def rowProblem? (s : σ) (row : Row) : Option RowProblem :=
  match named s row.source with
  | none => some (.unknownTerm row.source)
  | some source =>
    ((Cell.decode r.registry row.cell).zip (Cell.rawEntries row.cell)).findSome?
      fun (entry, raw) => r.entryProblem? s source.id entry raw

/-- The edges that a row asks for. -/
def rowEdges (s : σ) (row : Row) : List Edge :=
  match named s row.source with
  | none => []
  | some source => (Cell.decode r.registry row.cell).filterMap (entryEdge? s source.id)

/-- Edges with what they imply. -/
def plans (edges : List Edge) : Finset Edge := (edges.flatMap (·.plan r.registry)).toFinset

/-- Whether an entry is rejected: its target is not found, or the relation does not
pass its check. -/
def Rejects (s : σ) (source : TermId) (entry : CellEntry) : Prop :=
  named s entry.target = none ∨
    ∃ target, named s entry.target = some target ∧
      ∃ error, (r.validate source target.id entry.type).run s = (.error error, s)

end Relations

/-- What an import of a row comes to: all or nothing. -/
structure RowExact (r : Relations) (s : σ) (row : Row) : Prop where
  /-- It fails if the source or an entry is no good, and only then. -/
  fails_iff : (∃ problem s', (r.importRow row).run s = (.error problem, s')) ↔
    named s row.source = none ∨ ∃ source, named s row.source = some source ∧
      ∃ entry ∈ Cell.decode r.registry row.cell, r.Rejects s source.id entry
  /-- A row that fails names its first problem and changes nothing. -/
  of_error : ∀ problem s', (r.importRow row).run s = (.error problem, s') →
    r.rowProblem? s row = some problem ∧ s' = s
  /-- A row that passes adds what its entries ask for, and counts what is new. -/
  of_ok : ∀ added s', (r.importRow row).run s = (.ok added, s') →
    r.rowProblem? s row = none ∧ SameTerms s s' ∧
      links s' = links s ∪ r.plans (r.rowEdges s row) ∧
      added = (wholes r.registry (links s') \ wholes r.registry (links s)).card

end Reading

/-! ## Requests made for a row -/

section Requests

variable {σ α : Type} {act : RelationM σ α} {s s' : σ}

theorem RowM.ofRequest_run {result : Except RelationError α} (h : act.run s = (result, s')) :
    (RowM.ofRequest act).run s = (result.mapError .refused, s') := by
  unfold ofRequest
  rw [ExceptT.run_mk]
  simp only [h]
  cases result with
  | ok a => rfl
  | error error => rfl

end Requests

variable {σ : Type} [EditableStore σ] [LawfulStore σ]

namespace Relations

variable (r : Relations)

theorem termByName_run (s : σ) (name : String) :
    (r.termByName name).run s = (.ok (named s name), s) := by
  obtain ⟨found, hfound⟩ := looks_termByName name s
  unfold termByName
  rw [run_bind_ok (r.call_run hfound), run_pure, named, StoreM.answer?, hfound]
  rfl

/-! ## Checks -/

section Checks

variable {s s' : σ} {source : TermId} {entry : CellEntry} {raw : List Char} {row : Row}

theorem rowProblem?_of_sameTerms (h : SameTerms s s') (row : Row) :
    r.rowProblem? s' row = r.rowProblem? s row := by
  unfold rowProblem? entryProblem?
  simp only [h.named_eq, r.validate_run, r.verdict_of_sameTerms h]

omit [LawfulStore σ] in
theorem rowEdges_of_sameTerms (h : SameTerms s s') (row : Row) :
    r.rowEdges s' row = r.rowEdges s row := by
  unfold rowEdges entryEdge?
  simp only [h.named_eq]

/-- A check of an entry leaves no trace. It fails with the problem of the entry, or
it passes the edge that the entry asks for. -/
theorem checkEntry_cases (s : σ) (source : TermId) (raw : List Char) :
    let entry := Cell.decodeEntry r.registry raw
    (∃ problem, r.entryProblem? s source entry raw = some problem ∧ r.Rejects s source entry ∧
        (r.checkEntry source raw).run s = (.error problem, s)) ∨
      ∃ e, r.entryProblem? s source entry raw = none ∧ ¬ r.Rejects s source entry ∧
        entryEdge? s source entry = some e ∧ e.source = source ∧ Addable r.registry s e ∧
        (r.checkEntry source raw).run s = (.ok (e.target, e.type), s) := by
  intro entry
  have hlookup := RowM.ofRequest_run (r.termByName_run s entry.target)
  unfold checkEntry entryProblem? entryEdge?
  cases hnamed : named s entry.target with
  | none =>
      rw [hnamed] at hlookup
      rw [run_bind_ok hlookup]
      cases hprefix : Cell.unknownType? r.registry raw with
      | none => exact .inl ⟨_, rfl, .inl hnamed, rfl⟩
      | some name => exact .inl ⟨_, rfl, .inl hnamed, rfl⟩
  | some target =>
      rw [hnamed] at hlookup
      rw [run_bind_ok hlookup]
      have hvalidate := r.validate_run s source target.id entry.type
      simp only [hvalidate]
      cases hverdict : r.verdict s source target.id entry.type with
      | error error =>
          rw [hverdict] at hvalidate
          exact .inl ⟨_, rfl, .inr ⟨target, hnamed, error, hvalidate⟩,
            run_bind_error (RowM.ofRequest_run hvalidate)⟩
      | ok type =>
          rw [hverdict] at hvalidate
          let e : Edge := { source := source, target := target.id, type := entry.type }
          have he : Addable r.registry s e := r.addable_of_verdict hverdict
          have hname : type.name = entry.type := by
            obtain ⟨type', hverdict', hname⟩ := r.verdict_of_addable he
            rw [hverdict] at hverdict'
            rw [Except.ok.inj hverdict', hname]
          refine .inr ⟨e, rfl, ?_, rfl, rfl, he, ?_⟩
          · rintro (hnone | ⟨other, hother, error, hrefused⟩)
            · rw [hnamed] at hnone
              cases hnone
            · obtain rfl := Option.some.inj (hnamed.symm.trans hother)
              rw [hvalidate] at hrefused
              cases hrefused
          · rw [run_bind_ok (RowM.ofRequest_run hvalidate), run_pure, hname]

/-- Entries are checked up to the first problem. Without problem the checks pass on
the edges that the entries ask for, all of which may be added. -/
theorem checkEntries_cases (s : σ) (source : TermId) (raws : List (List Char)) :
    let problem? := raws.findSome? fun raw =>
      r.entryProblem? s source (Cell.decodeEntry r.registry raw) raw
    let edges := raws.filterMap fun raw => entryEdge? s source (Cell.decodeEntry r.registry raw)
    (∃ problem, problem? = some problem ∧
        (∃ raw ∈ raws, r.Rejects s source (Cell.decodeEntry r.registry raw)) ∧
        (raws.mapM (r.checkEntry source)).run s = (.error problem, s)) ∨
      (problem? = none ∧ (∀ raw ∈ raws, ¬ r.Rejects s source (Cell.decodeEntry r.registry raw)) ∧
        (∀ e ∈ edges, e.source = source ∧ Addable r.registry s e) ∧
        (raws.mapM (r.checkEntry source)).run s =
          (.ok (edges.map fun e => (e.target, e.type)), s)) := by
  induction raws with
  | nil => exact .inr ⟨rfl, by simp, by simp, rfl⟩
  | cons raw rest ih =>
      rw [List.mapM_cons, List.findSome?_cons]
      rcases r.checkEntry_cases s source raw with
        ⟨problem, hproblem, hrejects, hrun⟩ | ⟨e, hnone, hpasses, hedge, hsource, he, hrun⟩
      · rw [hproblem, run_bind_error hrun]
        exact .inl ⟨problem, rfl, ⟨raw, List.mem_cons_self, hrejects⟩, rfl⟩
      · have hasked : (raw :: rest).filterMap
              (fun raw => entryEdge? s source (Cell.decodeEntry r.registry raw)) =
            e :: rest.filterMap fun raw => entryEdge? s source (Cell.decodeEntry r.registry raw) :=
          List.filterMap_cons_some hedge
        rw [hnone, run_bind_ok hrun, hasked]
        rcases ih with
          ⟨problem, hproblem, ⟨other, hother, hrejects⟩, hrest⟩ | ⟨hnone', hpass, hedges, hrest⟩
        · rw [run_bind_error hrest]
          exact .inl ⟨problem, hproblem, ⟨other, List.mem_cons_of_mem raw hother, hrejects⟩, rfl⟩
        · rw [run_bind_ok hrest, run_pure]
          exact .inr ⟨hnone', List.forall_mem_cons.2 ⟨hpasses, hpass⟩,
            List.forall_mem_cons.2 ⟨⟨hsource, he⟩, hedges⟩, rfl⟩

/-- Every entry of a cell stands beside the text that it is read from. -/
theorem findSome?_zip_decode {α : Type} (cell : String) (f : CellEntry × List Char → Option α) :
    ((Cell.decode r.registry cell).zip (Cell.rawEntries cell)).findSome? f =
      (Cell.rawEntries cell).findSome? fun raw => f (Cell.decodeEntry r.registry raw, raw) := by
  rw [Cell.decode]
  generalize Cell.rawEntries cell = raws
  induction raws with
  | nil => rfl
  | cons raw rest ih => rw [List.map_cons, List.zip_cons_cons, List.findSome?_cons, ih,
      List.findSome?_cons]

/-- Some entry is rejected exactly if there is a problem. -/
theorem rowProblem?_isSome_iff (s : σ) (row : Row) :
    (r.rowProblem? s row).isSome = true ↔
      named s row.source = none ∨ ∃ source, named s row.source = some source ∧
        ∃ entry ∈ Cell.decode r.registry row.cell, r.Rejects s source.id entry := by
  unfold rowProblem?
  cases hnamed : named s row.source with
  | none => simp
  | some source =>
      simp only [findSome?_zip_decode]
      simp only [Cell.decode, List.mem_map, reduceCtorEq, Option.some.injEq, false_or,
        exists_eq_left']
      rcases r.checkEntries_cases s source.id (Cell.rawEntries row.cell) with
        ⟨problem, hproblem, ⟨raw, hraw, hrejects⟩, -⟩ | ⟨hnone, hpass, -, -⟩
      · exact iff_of_true (Option.isSome_iff_exists.2 ⟨problem, hproblem⟩)
          ⟨_, ⟨raw, hraw, rfl⟩, hrejects⟩
      · refine iff_of_false (by simp [hnone]) ?_
        rintro ⟨_, ⟨raw, hraw, rfl⟩, hrejects⟩
        exact hpass raw hraw hrejects

end Checks

end Relations

/-! ## Writes -/

/-- A state that has the relations of these edges besides its own edges. Where they were
there, it is the very state that it was. -/
structure Grown (r : Relations) (s s' : σ) (asked : List Edge) : Prop where
  links_eq : links s' = links s ∪ r.plans asked
  sameTerms : SameTerms s s'
  sound : Sound s'
  same : r.plans asked ⊆ links s → s' = s

theorem Relations.plans_append (r : Relations) (first rest : List Edge) :
    r.plans (first ++ rest) = r.plans first ∪ r.plans rest := by
  rw [plans, List.flatMap_append, List.toFinset_append, plans, plans]

namespace Grown

variable {r : Relations} {s s' s'' : σ} {asked first rest : List Edge}

theorem refl (hs : Sound s) : Grown r s s [] :=
  ⟨(Finset.union_empty _).symm, .refl s, hs, fun _ => rfl⟩

theorem trans (h : Grown r s s' first) (h' : Grown r s' s'' rest) :
    Grown r s s'' (first ++ rest) where
  links_eq := by rw [h'.links_eq, h.links_eq, Finset.union_assoc, r.plans_append]
  sameTerms := h.sameTerms.trans h'.sameTerms
  sound := h'.sound
  same hsubset := by
    rw [r.plans_append] at hsubset
    obtain rfl := h.same (Finset.union_subset_left hsubset)
    exact h'.same (Finset.union_subset_right hsubset)

/-- New relations are counted from the first state on. -/
theorem card_newWholes_append (h : Grown r s s' first) (rest : List Edge) :
    (newWholes r.registry (links s) (first ++ rest)).card =
      (newWholes r.registry (links s) first).card +
        (newWholes r.registry (links s') rest).card := by
  rw [h.links_eq]
  exact Thesaurus.card_newWholes_append (links s) first rest

end Grown

namespace Relations

variable [GrowingStore σ] (r : Relations) {s : σ}

/-- A relation that may be added is added, also where edges are odd, and is counted
if it is new. -/
theorem add_grows {e : Edge} (hs : Sound s) (he : Addable r.registry s e) :
    ∃ o s', (r.add e.source e.target e.type).run s = (.ok o, s') ∧ Grown r s s' [e] ∧
      (if o.isNoop then 0 else 1) = (newWholes r.registry (links s) [e]).card := by
  obtain ⟨s', hrun, hleads⟩ := r.add_run_of_sound hs he
  have hplans : r.plans [e] = e.whole r.registry := by
    rw [plans, List.flatMap_singleton, Edge.whole]
  refine ⟨_, s', hrun, ⟨?_, hleads.sameTerms, hleads.sound, ?_⟩, ?_⟩
  · rw [hleads.links_eq, hplans]
  · intro hsubset
    have hsame := r.add_same hs he (hplans ▸ hsubset)
    rw [hrun] at hsame
    exact hsame
  · simp only [card_newWholes_singleton, Outcome.isNoop, outcome, beq_iff_eq]

/-- Edges of one source that have passed their checks are all added: an addition
changes no terms, so those to come stay addable. -/
theorem addEdges_run (source : TermId) (edges : List Edge) :
    ∀ s : σ, Sound s → (∀ e ∈ edges, e.source = source ∧ Addable r.registry s e) →
      ∃ outcomes s', ((edges.map fun e : Edge => (e.target, e.type)).mapM fun (target, type) =>
          RowM.ofRequest (r.add source target type)).run s = (.ok outcomes, s') ∧
        Grown r s s' edges ∧
        outcomes.countP (!·.isNoop) = (newWholes r.registry (links s) edges).card := by
  induction edges with
  | nil => intro s hs _; exact ⟨[], s, rfl, .refl hs, rfl⟩
  | cons e rest ih =>
      intro s hs hedges
      obtain ⟨rfl, he⟩ := hedges e List.mem_cons_self
      obtain ⟨o, t, hadd, hfirst, hcount⟩ := r.add_grows hs he
      have hrest : ∀ f ∈ rest, f.source = e.source ∧ Addable r.registry t f := by
        intro f hf
        obtain ⟨hsource, haddable⟩ := hedges f (List.mem_cons_of_mem e hf)
        exact ⟨hsource, haddable.of_sameTerms hfirst.sameTerms⟩
      obtain ⟨outcomes, u, hadds, hsecond, hcounts⟩ := ih t hfirst.sound hrest
      refine ⟨o :: outcomes, u, ?_, hfirst.trans hsecond, ?_⟩
      · rw [List.map_cons, List.mapM_cons, run_bind_ok (RowM.ofRequest_run hadd),
          run_bind_ok hadds, run_pure]
      · have hsum := hfirst.card_newWholes_append rest
        rw [List.singleton_append, ← hcount, ← hcounts] at hsum
        rw [hsum, List.countP_cons, Nat.add_comm]
        cases o.isNoop with
        | true => rfl
        | false => rfl

/-! ## A row -/

/-- An import of a row runs into the first problem and changes nothing, or adds what
the row asks for and counts what is new of it. -/
theorem importRow_cases (row : Row) (hs : Sound s) :
    (∃ problem, r.rowProblem? s row = some problem ∧
        (r.importRow row).run s = (.error problem, s)) ∨
      ∃ s', r.rowProblem? s row = none ∧
        (r.importRow row).run s =
          (.ok (newWholes r.registry (links s) (r.rowEdges s row)).card, s') ∧
        Grown r s s' (r.rowEdges s row) := by
  have hlookup := RowM.ofRequest_run (r.termByName_run s row.source)
  unfold importRow rowProblem? rowEdges
  cases hnamed : named s row.source with
  | none =>
      rw [hnamed] at hlookup
      rw [run_bind_ok hlookup]
      exact .inl ⟨_, rfl, rfl⟩
  | some source =>
      rw [hnamed] at hlookup
      rw [run_bind_ok hlookup]
      simp only [findSome?_zip_decode]
      simp only [Cell.decode, List.filterMap_map]
      rcases r.checkEntries_cases s source.id (Cell.rawEntries row.cell) with
        ⟨problem, hproblem, -, hchecks⟩ | ⟨hnone, -, hedges, hchecks⟩
      · exact .inl ⟨problem, hproblem, run_bind_error hchecks⟩
      · obtain ⟨outcomes, s', hadds, hgrown, hcount⟩ := r.addEdges_run source.id _ s hs hedges
        refine .inr ⟨s', hnone, ?_, hgrown⟩
        show (List.mapM _ _ >>= _ : RowM σ Nat).run s = _
        rw [run_bind_ok hchecks, run_bind_ok hadds, run_pure, hcount]
        rfl

theorem importRow_exact (row : Row) (hs : Sound s) (hclosed : InverseClosed r.registry (links s)) :
    RowExact r s row := by
  rcases r.importRow_cases row hs with
    ⟨problem, hproblem, hrun⟩ | ⟨s', hnone, hrun, hgrown⟩
  · refine ⟨?_, ?_, ?_⟩
    · rw [← r.rowProblem?_isSome_iff, hproblem]
      exact iff_of_true ⟨problem, s, hrun⟩ rfl
    · intro problem' t hrun'
      rw [hrun] at hrun'
      cases hrun'
      exact ⟨hproblem, rfl⟩
    · intro added t hrun'
      rw [hrun] at hrun'
      cases hrun'
  · refine ⟨?_, ?_, ?_⟩
    · rw [← r.rowProblem?_isSome_iff, hnone]
      refine iff_of_false ?_ Bool.false_ne_true
      rintro ⟨problem, t, hrun'⟩
      rw [hrun] at hrun'
      cases hrun'
    · intro problem t hrun'
      rw [hrun] at hrun'
      cases hrun'
    · intro added' t hrun'
      rw [hrun] at hrun'
      cases hrun'
      refine ⟨hnone, hgrown.sameTerms, hgrown.links_eq, ?_⟩
      rw [hclosed.newWholes_eq_sdiff, hgrown.links_eq, plans]

end Relations

end Thesaurus
