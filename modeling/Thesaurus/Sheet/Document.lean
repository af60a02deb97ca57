import Thesaurus.Rdf.Scheme
import Thesaurus.Sheet.Import

/-!
# Relation sheets

The relations of a glossary as one comma-separated document: a header, then a line
for each live term with its fully qualified name and its relation cell. The same
documents are read back into rows for an import.

A field that holds a comma, a quote or a line break stands between quotes, and a quote
inside it is written twice. Readers take quotes anywhere in a field and drop carriage
returns outside quotes.

## Main definitions

* `Csv.parse`, `Csv.formatRecord`: records of a sheet.
* `Relations.sheetOf`: the sheet of a glossary.
* `rowsOfSheet`: the rows of a sheet.
-/

/-! ## Comma-separated records -/

namespace Thesaurus.Csv

/-! ### Reading -/

/-- A sheet as far as it has been read, all lists last first. -/
structure Reading where
  field : List Char := []
  record : List String := []
  records : List (List String) := []
deriving Repr, Inhabited

namespace Reading

/-- Adds a character to the field. -/
def push (r : Reading) (c : Char) : Reading := { r with field := c :: r.field }

/-- Ends the field. -/
def endField (r : Reading) : Reading :=
  { r with field := [], record := .ofList r.field.reverse :: r.record }

/-- Ends the field and the record. -/
def endRecord (r : Reading) : Reading :=
  let r := r.endField
  { r with record := [], records := r.record.reverse :: r.records }

/-- The records of a text that ends here: a last line without line break is a
record if anything stands in it. -/
def finish (r : Reading) : List (List String) :=
  let r := if r.field.isEmpty && r.record.isEmpty then r else r.endRecord
  r.records.reverse

end Reading

mutual

/-- Reads characters outside quotes. -/
def readPlain (r : Reading) : List Char → Reading
  | [] => r
  | '"' :: rest => readQuoted r rest
  | ',' :: rest => readPlain r.endField rest
  | '\r' :: rest => readPlain r rest
  | '\n' :: rest => readPlain r.endRecord rest
  | c :: rest => readPlain (r.push c) rest

/-- Reads characters between quotes, up to a quote that no other follows. -/
def readQuoted (r : Reading) : List Char → Reading
  | [] => r
  | '"' :: '"' :: rest => readQuoted (r.push '"') rest
  | '"' :: rest => readPlain r rest
  | c :: rest => readQuoted (r.push c) rest

end

/-- Whether a record is a blank line. -/
def isBlankRecord (record : List String) : Bool :=
  match record with
  | [only] => Text.isAllBlank only
  | _ => false

/-- The records of a text, without blank lines. -/
def parse (text : String) : List (List String) :=
  (readPlain {} text.toList).finish.filter fun r => !isBlankRecord r

/-! ### Writing -/

/-- Whether a field needs quotes. -/
def needsQuotes (field : List Char) : Bool :=
  field.any fun c => c = ',' || c = '"' || c = '\n' || c = '\r'

/-- A field as it is written. -/
def formatField (field : String) : List Char :=
  if needsQuotes field.toList then
    '"' :: field.toList.flatMap (fun c => if c = '"' then ['"', '"'] else [c]) ++ ['"']
  else field.toList

/-- A record as it is written, without the line break. -/
def formatRecord (record : List String) : String :=
  .ofList (Text.joined ',' (record.map formatField))

/-! ### Headers -/

/-- The first record of a relation sheet. -/
def header : List String := ["fullyQualifiedName", "relatedTerms"]

/-- Whether a record is the header: its first field says so. -/
def isHeader (record : List String) : Bool :=
  match record with
  | first :: _ => Text.trimmed first == "fullyQualifiedName"
  | [] => false

end Thesaurus.Csv

/-! ## Sheets of a glossary -/

namespace Thesaurus

/-! ### Writing -/

/-- A record as a line. -/
def sheetLine (record : List String) : String := Csv.formatRecord record ++ "\n"

/-- A sheet of lines: fully qualified names with relation cells. -/
def sheetText (lines : List (String × String)) : String :=
  "".intercalate (sheetLine Csv.header :: lines.map fun l => sheetLine [l.1, l.2])

/-- The sheet of a glossary. -/
def Relations.sheetOf {σ : Type} [Store σ] (r : Relations) (id : GlossaryId) :
    ExportM σ String := do
  let members ← ExportM.ofStore (Store.members id)
  let lines ← members.mapM fun t => do
    return (t.fullName, ← ExportM.ofRequest (r.cellOf t.id))
  return sheetText lines

/-! ### Reading -/

/-- The records below the header, if there is one. -/
def sheetRecords (text : String) : List (List String) :=
  match Csv.parse text with
  | first :: rest => if Csv.isHeader first then rest else first :: rest
  | [] => []

/-- The row of a record: its first field names a term, its second is the cell. -/
def Row.ofRecord (number : Nat) (record : List String) : Row where
  number := number
  source := Text.trimmed (record[0]?.getD "")
  cell := record[1]?.getD ""

/-- The rows of a sheet, counted from one. -/
def rowsOfSheet (text : String) : List Row :=
  (sheetRecords text).mapIdx fun index record => .ofRecord (index + 1) record

end Thesaurus
