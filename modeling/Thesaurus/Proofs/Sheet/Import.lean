import Thesaurus.Proofs.Sheet.Row

/-!
# Imports, row after row

An import goes through its rows in their order. Rows change no terms, so what is
wrong with a row can be said before the import begins; a bad row leaves the edges
as they are, and the report adds up. All of the report can be read off the state before
the import.

## Main definitions

* `Relations.reportOf`: the report of an import, read off the state before it.
* `ReportExact`: a report that says what happened.

## Main results

* `Relations.importRows_concat`: one row more.
* `Relations.importRows_run`: rows of any kind, whatever is stored.
* `import_all_or_nothing`: every row is imported as a whole or not at all.
-/

namespace Thesaurus

open Store LawfulStore

/-- The edges that a row brings in: none if something is wrong with it. -/
def Relations.passedEdges {σ : Type} [Store σ] (r : Relations) (s : σ) (row : Row) : List Edge :=
  if (r.rowProblem? s row).isSome then [] else r.rowEdges s row

section Passed

variable {σ : Type} [Store σ] {r : Relations} {s : σ} {row : Row}

theorem Relations.passedEdges_of_problem {problem : RowProblem}
    (h : r.rowProblem? s row = some problem) : r.passedEdges s row = [] := by
  rw [passedEdges, h, Option.isSome_some, if_pos rfl]

theorem Relations.passedEdges_of_none (h : r.rowProblem? s row = none) :
    r.passedEdges s row = r.rowEdges s row := by
  rw [passedEdges, h, Option.isSome_none, if_neg Bool.false_ne_true]

end Passed

/-- A report that says what happened: every row counts as passed or failed, every
problem stands with its row in the order of the rows, and the relations that were
added are those whose edges are stored now and were not before. The edges are those
that were there and those of the rows that passed. -/
structure ReportExact {σ : Type} [Store σ] (r : Relations) (s s' : σ) (rows : List Row)
    (report : Report) : Prop where
  processed_eq : report.processed = rows.length
  passed_add_failed : report.passed + report.failed = report.processed
  failed_eq : report.failed = report.failures.length
  failures_eq : report.failures = rows.filterMap fun row =>
    (r.rowProblem? s row).map fun problem => { number := row.number, problem := problem }
  links_eq : links s' = links s ∪ r.plans (rows.flatMap (r.passedEdges s))
  added_eq : report.added = (wholes r.registry (links s') \ wholes r.registry (links s)).card

/-- What a row is reported with if it fails. -/
def Relations.rowFailure? {σ : Type} [Store σ] (r : Relations) (s : σ) (row : Row) :
    Option RowFailure :=
  (r.rowProblem? s row).map fun problem => { number := row.number, problem := problem }

/-- The report of an import, read off the state before it. -/
def Relations.reportOf {σ : Type} [Store σ] (r : Relations) (s : σ) (rows : List Row) :
    Report where
  processed := rows.length
  passed := rows.countP fun row => (r.rowProblem? s row).isNone
  failed := rows.countP fun row => (r.rowProblem? s row).isSome
  added := (newWholes r.registry (links s) (rows.flatMap (r.passedEdges s))).card
  failures := rows.filterMap (r.rowFailure? s)

variable {σ : Type} [EditableStore σ] [LawfulStore σ]

namespace Relations

variable (r : Relations) {s s' : σ} {rows : List Row} {row : Row}

omit [LawfulStore σ] in
theorem importRows_concat (rows : List Row) (row : Row) (s : σ) :
    (r.importRows (rows ++ [row])).run s =
      let before := (r.importRows rows).run s
      let last := (r.importRow row).run before.2
      (before.1.note row last.1, last.2) := by
  unfold importRows
  rw [List.foldlM_append]
  rfl

/-! ## The report, row by row -/

omit [LawfulStore σ] in
theorem note_error {problem : RowProblem} (h : r.rowProblem? s row = some problem) :
    (r.reportOf s rows).note row (.error problem) = r.reportOf s (rows ++ [row]) := by
  have hedges := passedEdges_of_problem h
  have hfailure : r.rowFailure? s row = some { number := row.number, problem := problem } := by
    rw [rowFailure?, h, Option.map_some]
  unfold reportOf Report.note
  simp only [List.length_append, List.length_singleton, List.countP_append,
    List.countP_singleton, h, Option.isNone_some, Option.isSome_some, Bool.false_eq_true,
    if_false, if_true, Nat.add_zero, List.flatMap_append, List.flatMap_singleton, hedges,
    List.append_nil, List.filterMap_append, List.filterMap_cons, hfailure, List.filterMap_nil]

theorem note_ok (hgrown : Grown r s s' (rows.flatMap (r.passedEdges s)))
    (h : r.rowProblem? s row = none) :
    (r.reportOf s rows).note row (.ok (newWholes r.registry (links s') (r.rowEdges s row)).card) =
      r.reportOf s (rows ++ [row]) := by
  have hedges := passedEdges_of_none h
  have hfailure : r.rowFailure? s row = none := by rw [rowFailure?, h, Option.map_none]
  unfold reportOf Report.note
  simp only [List.length_append, List.length_singleton, List.countP_append,
    List.countP_singleton, h, Option.isNone_none, Option.isSome_none, Bool.false_eq_true,
    if_false, if_true, Nat.add_zero, List.flatMap_append, List.flatMap_singleton, hedges,
    hgrown.card_newWholes_append, List.filterMap_append, List.filterMap_cons, hfailure,
    List.filterMap_nil, List.append_nil]

omit [LawfulStore σ] in
theorem passed_add_failed (s : σ) (rows : List Row) :
    (r.reportOf s rows).passed + (r.reportOf s rows).failed = rows.length := by
  have hothers : (fun row => decide ¬(r.rowProblem? s row).isNone = true) =
      fun row => (r.rowProblem? s row).isSome := by
    funext row
    cases r.rowProblem? s row with
    | none => rfl
    | some problem => rfl
  have hsplit := rows.length_eq_countP_add_countP fun row => (r.rowProblem? s row).isNone
  rw [hothers] at hsplit
  exact hsplit.symm

omit [LawfulStore σ] in
theorem failed_eq_length (s : σ) (rows : List Row) :
    (r.reportOf s rows).failed = (r.reportOf s rows).failures.length := by
  show rows.countP _ = (rows.filterMap _).length
  rw [List.length_filterMap_eq_countP]
  simp only [rowFailure?, Option.isSome_map]

/-- The import of rows is as the state before it says: the rows change no terms, so what
is wrong with a row does not depend on the rows before it. -/
theorem importRows_run [GrowingStore σ] (hs : Sound s) (rows : List Row) :
    ∃ s', (r.importRows rows).run s = (r.reportOf s rows, s') ∧
      Grown r s s' (rows.flatMap (r.passedEdges s)) := by
  induction rows using List.reverseRecOn with
  | nil => exact ⟨s, rfl, .refl hs⟩
  | append_singleton rows row ih =>
      obtain ⟨t, hrows, hgrown⟩ := ih
      have hproblem := r.rowProblem?_of_sameTerms hgrown.sameTerms row
      have hasked := r.rowEdges_of_sameTerms hgrown.sameTerms row
      rw [r.importRows_concat, hrows, List.flatMap_append, List.flatMap_singleton]
      rcases r.importRow_cases row hgrown.sound with
        ⟨problem, hsome, hrun⟩ | ⟨u, hnone, hrun, hmore⟩
      · rw [hproblem] at hsome
        refine ⟨t, ?_, ?_⟩
        · simp only [hrun, r.note_error hsome]
        · rw [passedEdges_of_problem hsome, List.append_nil]
          exact hgrown
      · rw [hproblem] at hnone
        rw [hasked] at hrun hmore
        refine ⟨u, ?_, ?_⟩
        · simp only [hrun, r.note_ok hgrown hnone]
        · rw [passedEdges_of_none hnone]
          exact hgrown.trans hmore

end Relations

/-- On either store, in every state that calls bring about and that holds implied
edges along with the edges that imply them: each row is imported as a whole or not
at all, and whether it is does not depend on the rows before it. The report says
what happened. -/
theorem import_all_or_nothing (b : Backend) (r : Relations) (s : b.State) (hs : Built s)
    (hclosed : InverseClosed r.registry (links s)) (rows : List Row) :
    (∀ before row after, rows = before ++ row :: after →
      let t := ((r.importRows before).run s).2
      ((r.importRows (before ++ [row])).run s).2 = ((r.importRow row).run t).2 ∧
        r.rowProblem? t row = r.rowProblem? s row ∧ RowExact r t row) ∧
      ReportExact r s ((r.importRows rows).run s).2 rows ((r.importRows rows).run s).1 := by
  have hsound : Sound s := sound_of_built hs
  constructor
  · rintro before row after rfl t
    obtain ⟨t', hrun, hbefore⟩ := r.importRows_run hsound before
    obtain rfl : t = t' := congrArg Prod.snd hrun
    refine ⟨by rw [r.importRows_concat], r.rowProblem?_of_sameTerms hbefore.sameTerms row,
      r.importRow_exact row hbefore.sound ?_⟩
    rw [hbefore.links_eq]
    exact hclosed.union (.planned r.registry _)
  · obtain ⟨s', hrun, hgrown⟩ := r.importRows_run hsound rows
    rw [hrun]
    exact
      { processed_eq := rfl
        passed_add_failed := r.passed_add_failed s rows
        failed_eq := r.failed_eq_length s rows
        failures_eq := rfl
        links_eq := hgrown.links_eq
        added_eq := by
          rw [hgrown.links_eq]
          exact congrArg Finset.card (hclosed.newWholes_eq_sdiff _) }

/-- A glossary with two terms. -/
def writeArtTerms : List Write :=
  let glossary : Glossary := { id := ⟨"art"⟩, name := "Art" }
  [.edit (.putGlossary glossary), .edit (.putTerm (.topLevel ⟨"cubism"⟩ glossary "Cubism")),
    .edit (.putTerm (.topLevel ⟨"painting"⟩ glossary "Painting"))]

/-- A row whose second entry is no good is not imported; the next row is. -/
theorem second_of_two_rows_imported :
    let r : Relations := { registry := .builtin }
    let s : Backend.State .ordered :=
      writeArtTerms.foldl (fun s w => w.run s) EditableStore.empty
    let bad : Row := { number := 1, source := "Art.Cubism", cell := "Art.Painting;usedBy:Art.Muse" }
    let good : Row := { number := 2, source := "Art.Cubism", cell := "broader:Art.Painting" }
    let s' := ((r.importRows [bad, good]).run s).2
    let report : Report :=
      { processed := 2, passed := 1, failed := 1, added := 1,
        failures := [{ number := 1, problem := .unknownType "usedBy" }] }
    Built s ∧ InverseClosed r.registry (links s) ∧ [bad, good] = [] ++ bad :: [good] ∧
      RowExact r s bad ∧ ((r.importRows [bad, good]).run s).1 = report ∧
      ReportExact r s s' [bad, good] report := by
  intro r s bad good s' report
  have hs : Built s := Built.writes writeArtTerms _ .empty
  have hempty : links s = ∅ := by decide +kernel
  have hclosed : InverseClosed r.registry (links s) := hempty ▸ .empty r.registry
  have hreport : ((r.importRows [bad, good]).run s).1 = report := by decide +kernel
  obtain ⟨hrows, hexact⟩ := import_all_or_nothing .ordered r s hs hclosed [bad, good]
  rw [hreport] at hexact
  exact ⟨hs, hclosed, rfl, (hrows [] bad [good] rfl).2.2, hreport, hexact⟩

end Thesaurus
