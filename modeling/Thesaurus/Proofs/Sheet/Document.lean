import Thesaurus.Proofs.Rdf.Scheme
import Thesaurus.Proofs.Sheet.Csv
import Thesaurus.Sheet.Document

/-!
# Sheets, written and read

The sheet of a glossary has a line for each live term, and is read back as a row
for each, whatever characters stand in names and cells.

## Main results

* `Relations.sheetOf_run`: the lines of a sheet.
* `sheet_lines_read_back`: the records that are read from lines.
* `rowsOfSheet_sheetText`: the rows that are read from lines.
-/

namespace Thesaurus

open Store LawfulStore

/-! ## Writing -/

section Writing

variable {σ : Type} [EditableStore σ]

namespace Relations

/-- The entries of a term's cell. -/
def cellEntries (s : σ) (id : TermId) : List CellEntry :=
  (listed s id).map fun t => { type := t.type, target := t.term.fullName }

/-- The lines of a sheet: names and cells. -/
def sheetLines (r : Relations) (s : σ) (id : GlossaryId) : List (String × String) :=
  (membersOf s id).map fun t => (t.fullName, Cell.encode r.registry (cellEntries s t.id))

variable [LawfulStore σ] (r : Relations) {s : σ}

/-- The cell of a term has an entry for each of its relations to a live term. -/
theorem mem_cellEntries_iff (hs : Sound s) {id : TermId} (hid : Known s id) {entry : CellEntry} :
    entry ∈ cellEntries s id ↔ ∃ e ∈ links s, e.source = id ∧
      ∃ u, liveRecord s e.target = some u ∧ entry = { type := e.type, target := u.fullName } := by
  have hleaving : ∀ e, e ∈ leaving s id [] ↔
      e ∈ links s ∧ e.source = id ∧ TypeFilter.accepts [] e.type = true := by
    intro e
    exact mem_leaving hs hid fun type htype => absurd htype List.not_mem_nil
  unfold cellEntries listed
  rw [List.mem_map]
  constructor
  · rintro ⟨x, hx, rfl⟩
    obtain ⟨e, he, hex⟩ := List.mem_filterMap.1 hx
    obtain ⟨u, hu, rfl⟩ := Option.map_eq_some_iff.1 hex
    obtain ⟨hlinks, hsource, -⟩ := (hleaving e).1 he
    exact ⟨e, hlinks, hsource, u, hu, rfl⟩
  · rintro ⟨e, hlinks, hsource, u, hu, rfl⟩
    refine ⟨{ type := e.type, term := u.toRef }, List.mem_filterMap.2 ⟨e, ?_, ?_⟩, rfl⟩
    · exact (hleaving e).2 ⟨hlinks, hsource, rfl⟩
    · rw [hu]
      rfl

theorem cellOf_run {id : TermId} {t : Term} (h : liveRecord s id = some t) :
    (r.cellOf id).run s = (.ok (Cell.encode r.registry (cellEntries s id)), s) := by
  have hrun := r.relationsOf_run s id
  rw [h] at hrun
  unfold cellOf
  rw [run_bind_ok hrun, run_pure, cellEntries]

theorem sheetOf_run (id : GlossaryId)
    (h : ∀ t ∈ membersOf s id, liveRecord s t.id = some t) :
    (r.sheetOf id).run s = (.ok (sheetText (r.sheetLines s id)), s) := by
  obtain ⟨members, hmembers⟩ := looks_members id s
  have hlisted : membersOf s id = members := by
    rw [membersOf, StoreM.answer?, hmembers]
    rfl
  rw [hlisted] at h
  unfold sheetOf
  rw [run_bind_ok (ExportM.ofStore_run hmembers)]
  rw [run_bind_ok (run_mapM_ok (g := fun t : Term =>
    (t.fullName, Cell.encode r.registry (cellEntries s t.id))) members fun t ht => by
      rw [run_bind_ok (ExportM.ofRequest_run (r.cellOf_run (h t ht))), run_pure])]
  rw [run_pure, sheetLines, hlisted]

end Relations

end Writing

/-! ## Reading -/

/-- Lines with nothing between them. -/
theorem intercalate_sheetLine (records : List (List String)) :
    ("".intercalate (records.map sheetLine)).toList = Csv.lines records := by
  have hline : ∀ record, (sheetLine record).toList =
      (Csv.formatRecord record).toList ++ ['\n'] := by
    intro record
    rw [sheetLine, String.toList_append]
    rfl
  rw [Text.toList_concat, List.flatMap_map, Csv.lines]
  exact List.flatMap_congr fun record _ => hline record

/-- What is read from the lines of some records, whatever characters their fields hold:
the records in their order, without exactly those that have no field or one alone that
trims to nothing. So records of two fields or more all come back. -/
theorem sheet_lines_read_back (records : List (List String)) :
    Csv.parse ("".intercalate (records.map sheetLine)) =
        records.filter (fun record => ¬Csv.Lost record) ∧
      (Csv.parse ("".intercalate (records.map sheetLine)) = records ↔
        ∀ record ∈ records, ¬Csv.Lost record) ∧
      ((∀ record ∈ records, 2 ≤ record.length) →
        Csv.parse ("".intercalate (records.map sheetLine)) = records) := by
  have hparse : Csv.parse ("".intercalate (records.map sheetLine)) =
      records.filter fun record => ¬Csv.Lost record := by
    have htext : "".intercalate (records.map sheetLine) = .ofList (Csv.lines records) := by
      rw [← intercalate_sheetLine, String.ofList_toList]
    rw [htext, Csv.parse_lines]
    refine List.filter_congr fun record _ => ?_
    rw [Bool.eq_iff_iff, decide_eq_true_iff, Csv.lost_iff, not_not]
  have hwhole : Csv.parse ("".intercalate (records.map sheetLine)) = records ↔
      ∀ record ∈ records, ¬Csv.Lost record := by
    rw [hparse, List.filter_eq_self]
    exact forall₂_congr fun record _ => decide_eq_true_iff
  exact ⟨hparse, hwhole, fun hfields =>
    hwhole.2 fun record hrecord => Csv.not_lost_of_length (hfields record hrecord)⟩

/-- Quotes beside commas, line breaks inside fields and empty last fields come back. -/
theorem awkward_lines_read_back :
    "".intercalate (([["\"a\",", "b\r\nc", ""], ["", " "]] : List (List String)).map sheetLine) =
        "\"\"\"a\"\",\",\"b\r\nc\",\n, \n" ∧
      Csv.parse "\"\"\"a\"\",\",\"b\r\nc\",\n, \n" =
        [["\"a\",", "b\r\nc", ""], ["", " "]] := by
  have htext : "".intercalate
      (([["\"a\",", "b\r\nc", ""], ["", " "]] : List (List String)).map sheetLine) =
        "\"\"\"a\"\",\",\"b\r\nc\",\n, \n" := by
    decide +kernel
  refine ⟨htext, ?_⟩
  rw [← htext]
  exact (sheet_lines_read_back _).2.2 (by decide)

theorem sheetText_eq (lines : List (String × String)) :
    sheetText lines = .ofList (Csv.lines (Csv.header :: lines.map fun l => [l.1, l.2])) := by
  apply String.toList_injective
  rw [String.toList_ofList, ← intercalate_sheetLine, List.map_cons, List.map_map, sheetText]
  rfl

/-- A row for each line, the header left out. -/
theorem rowsOfSheet_sheetText (lines : List (String × String)) :
    rowsOfSheet (sheetText lines) = lines.mapIdx fun index l =>
      { number := index + 1, source := Text.trimmed l.1, cell := l.2 } := by
  have hparse : Csv.parse (sheetText lines) = Csv.header :: lines.map fun l => [l.1, l.2] := by
    rw [sheetText_eq, Csv.parse_lines, List.filter_eq_self]
    intro record hrecord
    rcases List.mem_cons.1 hrecord with rfl | hrecord
    · rfl
    · obtain ⟨l, -, rfl⟩ := List.mem_map.1 hrecord
      rfl
  have hheader : Csv.isHeader Csv.header = true := by decide +kernel
  unfold rowsOfSheet sheetRecords
  rw [hparse]
  simp only [hheader, if_true]
  refine List.ext_getElem? fun i => ?_
  simp [List.getElem?_mapIdx, Row.ofRecord, Function.comp_def]

end Thesaurus
