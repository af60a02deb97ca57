import Mathlib.Data.List.TakeWhile
import Thesaurus.Sheet.Document

/-!
# Sheets are read as they are written

A field that is written plain holds nothing that ends it, and one that is written
between quotes holds no single quote. So reading a line that was written gives its
record back, whatever characters the fields hold, and the reader is left as it was
before the line. A record without fields is written like one empty field, as a
blank line, and blank lines are skipped.

## Main definitions

* `Csv.Lost`: the records that are not read back.

## Main results

* `Csv.readPlain_fields`: one line.
* `Csv.parse_lines`: all lines.
* `Csv.lost_iff`: the records that are lost are those that are skipped.
-/

/-! ## Trimming -/

namespace Thesaurus.Text

/-- Trimming leaves nothing of blanks, and something of all else. -/
theorem trim_eq_nil_iff {cs : List Char} : trim cs = [] ↔ ∀ c ∈ cs, isBlank c = true := by
  have hend : ∀ ds : List Char, trimEnd ds = [] ↔ ∀ c ∈ ds, isBlank c = true := by
    intro ds
    rw [trimEnd, List.reverse_eq_nil_iff, List.dropWhile_eq_nil_iff]
    simp only [List.mem_reverse]
  rw [trim, hend]
  constructor
  · intro hrest c hc
    rw [← List.takeWhile_append_dropWhile (p := isBlank) (l := cs)] at hc
    rcases List.mem_append.1 hc with hfront | hback
    · exact List.mem_takeWhile_imp hfront
    · exact hrest c hback
  · intro h c hc
    exact h c ((List.dropWhile_sublist isBlank).subset hc)

theorem trimmed_eq_empty_iff {s : String} :
    trimmed s = "" ↔ isAllBlank s = true := by
  rw [trimmed, ← String.toList_inj, String.toList_ofList, isAllBlank, List.all_eq_true]
  exact trim_eq_nil_iff

end Thesaurus.Text

namespace Thesaurus.Csv

/-- The text of a field between its quotes. -/
def doubled (field : List Char) : List Char :=
  field.flatMap fun c => if c = '"' then ['"', '"'] else [c]

/-- The reading after some characters of a field. -/
def Reading.pushAll (r : Reading) (field : List Char) : Reading :=
  { r with field := field.reverse ++ r.field }

theorem Reading.pushAll_push (r : Reading) (c : Char) (field : List Char) :
    (r.push c).pushAll field = r.pushAll (c :: field) := by
  simp [push, pushAll]

/-! ## Fields -/

theorem readPlain_of_not_needsQuotes (field rest : List Char) (h : needsQuotes field = false) :
    ∀ r, readPlain r (field ++ rest) = readPlain (r.pushAll field) rest := by
  induction field with
  | nil => intro r; rfl
  | cons c cs ih =>
      intro r
      simp only [needsQuotes, List.any_cons, Bool.or_eq_false_iff, decide_eq_false_iff_not] at h
      obtain ⟨⟨⟨⟨hcomma, hquote⟩, hline⟩, hreturn⟩, hrest⟩ := h
      rw [List.cons_append, readPlain, ih hrest, Reading.pushAll_push]
      all_goals assumption

/-- Doubled quotes are read back, and the quote that no other follows ends the
field. -/
theorem readQuoted_doubled (field rest : List Char) (h : rest.head? ≠ some '"') :
    ∀ r, readQuoted r (doubled field ++ '"' :: rest) = readPlain (r.pushAll field) rest := by
  induction field with
  | nil =>
      intro r
      show readQuoted r ('"' :: rest) = readPlain r rest
      cases rest with
      | nil => simp [readQuoted]
      | cons c cs =>
          have hc : c ≠ '"' := fun heq => h (congrArg some heq)
          rw [readQuoted]
          intro cs' hcs'
          exact hc (List.cons.inj hcs').1
  | cons c cs ih =>
      intro r
      rw [← Reading.pushAll_push, ← ih]
      by_cases hc : c = '"'
      · subst hc
        rfl
      · show readQuoted r (doubled (c :: cs) ++ '"' :: rest) = _
        have hdoubled : doubled (c :: cs) = c :: doubled cs := by simp [doubled, hc]
        rw [hdoubled, List.cons_append, readQuoted]
        · exact fun _ hquote => absurd hquote hc
        · exact hc

theorem readPlain_formatField (field : String) (rest : List Char) (h : rest.head? ≠ some '"')
    (r : Reading) :
    readPlain r (formatField field ++ rest) = readPlain (r.pushAll field.toList) rest := by
  unfold formatField
  by_cases hquotes : needsQuotes field.toList = true
  · rw [if_pos hquotes]
    show readPlain r ('"' :: (doubled field.toList ++ ['"']) ++ rest) = _
    rw [List.cons_append, List.append_assoc, readPlain]
    exact readQuoted_doubled field.toList rest h r
  · rw [if_neg hquotes]
    exact readPlain_of_not_needsQuotes field.toList rest (Bool.eq_false_iff.2 hquotes) r

/-! ## Lines -/

/-- A line is read as its record. -/
theorem readPlain_fields (fields : List String) (hne : fields ≠ []) (rest : List Char) :
    ∀ r : Reading, r.field = [] →
      readPlain r (Text.joined ',' (fields.map formatField) ++ '\n' :: rest) =
        readPlain { records := (r.record.reverse ++ fields) :: r.records } rest := by
  induction fields with
  | nil => exact absurd rfl hne
  | cons field others ih =>
      intro r hfield
      cases others with
      | nil =>
          show readPlain r (formatField field ++ '\n' :: rest) = _
          rw [readPlain_formatField _ _ (by simp), readPlain]
          simp [Reading.pushAll, Reading.endRecord, Reading.endField, hfield]
      | cons next more =>
          show readPlain r (formatField field ++ ',' ::
            Text.joined ',' ((next :: more).map formatField) ++ '\n' :: rest) = _
          rw [List.append_assoc, List.cons_append, readPlain_formatField _ _ (by simp), readPlain,
            ih (List.cons_ne_nil _ _) _ rfl]
          simp [Reading.pushAll, Reading.endField, hfield]

/-- What a record is read back as: a line has at least one field. -/
def written (record : List String) : List String := if record = [] then [""] else record

theorem readPlain_line (record : List String) (rest : List Char) (records : List (List String)) :
    readPlain { records := records } ((formatRecord record).toList ++ '\n' :: rest) =
      readPlain { records := written record :: records } rest := by
  rw [formatRecord, String.toList_ofList, written]
  by_cases hrecord : record = []
  · subst hrecord
    rw [if_pos rfl]
    show readPlain { records := records } ('\n' :: rest) = _
    rw [readPlain]
    rfl
  · rw [if_neg hrecord, readPlain_fields record hrecord rest _ rfl]
    rfl

/-- The lines of some records. -/
def lines (records : List (List String)) : List Char :=
  records.flatMap fun record => (formatRecord record).toList ++ ['\n']

theorem readPlain_lines (records : List (List String)) :
    ∀ before, readPlain { records := before } (lines records) =
      { records := (records.map written).reverse ++ before } := by
  induction records with
  | nil => intro before; rfl
  | cons record rest ih =>
      intro before
      have hlines : lines (record :: rest) =
          (formatRecord record).toList ++ '\n' :: lines rest := by
        simp [lines]
      rw [hlines, readPlain_line, ih, List.map_cons, List.reverse_cons, List.append_assoc,
        List.singleton_append]

theorem isBlankRecord_written (record : List String) :
    (!isBlankRecord (written record)) = (!record.isEmpty && !isBlankRecord record) := by
  cases record with
  | nil => rfl
  | cons field others => rfl

/-- Lines that were written are read back, without the blank ones. -/
theorem parse_lines (records : List (List String)) :
    parse (.ofList (lines records)) =
      records.filter fun record => !record.isEmpty && !isBlankRecord record := by
  have hfinish : (readPlain {} (lines records)).finish = records.map written := by
    rw [readPlain_lines records []]
    simp [Reading.finish]
  rw [parse, String.toList_ofList, hfinish, List.filter_map]
  have hkept : (fun record => !isBlankRecord record) ∘ written =
      fun record => !record.isEmpty && !isBlankRecord record := funext isBlankRecord_written
  rw [hkept]
  -- A record that is kept has fields, so it is read back as it is.
  refine (List.map_congr_left fun record hrecord => ?_).trans (List.map_id _)
  refine if_neg fun hempty => ?_
  subst hempty
  exact Bool.false_ne_true (List.mem_filter.1 hrecord).2

/-! ## Blank lines -/

/-- A record that is not read back from its line: it has no field, or one alone that
trims to nothing. -/
def Lost (record : List String) : Prop :=
  record = [] ∨ ∃ only, record = [only] ∧ Text.trimmed only = ""

/-- The records that are lost are those that are skipped. -/
theorem lost_iff {record : List String} :
    Lost record ↔ ¬(!record.isEmpty && !isBlankRecord record) = true := by
  match record with
  | [] => simp [Lost]
  | [only] => simp [Lost, isBlankRecord, Text.trimmed_eq_empty_iff]
  | first :: second :: others => simp [Lost, isBlankRecord]

instance : DecidablePred Lost := fun _ => decidable_of_iff _ lost_iff.symm

/-- A record of two fields or more is kept, whatever stands in them. -/
theorem not_lost_of_length {record : List String} (h : 2 ≤ record.length) : ¬Lost record := by
  rintro (rfl | ⟨only, rfl, -⟩)
  · exact absurd h (by decide)
  · exact absurd h (by simp)

end Thesaurus.Csv
