import Thesaurus.Relations
import Thesaurus.Text.Characters
import Thesaurus.Text.Cut

/-!
# Relation cells and their import

One cell of a sheet lists the relations of a term: entries `type:target` with
semicolons between, the target given by its fully qualified name. Entries of the
default type carry the target alone:

    synonym:Finance.Income;Finance.Profit;broader:Finance.Metrics

Names may hold colons themselves, so what stands before the first colon counts as
a type only if it is registered.

A row names a term and carries a relation cell. Everything about a row is checked
before anything of it is written, so a bad row leaves no trace; it is reported
and the other rows go on.

## Main definitions

* `Cell.encode`, `Cell.decode`: from entries to a cell and back.
* `Relations.importRows`: the import of rows.
-/

namespace Thesaurus

/-! ## Cells -/

/-- One relation as it stands in a cell. -/
structure CellEntry where
  type : String
  target : String
deriving DecidableEq, Repr, Inhabited

namespace Cell

/-- The character between entries. -/
def delimiter : Char := ';'

/-- The character between type and target. -/
def typeMark : Char := ':'

/-- An entry as it is written. -/
def encodeEntry (registry : Registry) (e : CellEntry) : List Char :=
  if e.type = registry.defaultName then e.target.toList
  else e.type.toList ++ typeMark :: e.target.toList

/-- The cell of a list of entries. -/
def encode (registry : Registry) (entries : List CellEntry) : String :=
  .ofList (Text.joined delimiter (entries.map (encodeEntry registry)))

/-- The entries of a cell as they are written, trimmed, without the blank ones. -/
def rawEntries (cell : String) : List (List Char) :=
  ((Text.pieces delimiter cell.toList).map Text.trim).filter fun e => !e.isEmpty

/-- The registered type before the first colon, and what follows. -/
def knownType? (registry : Registry) (raw : List Char) : Option (String × List Char) := do
  let (front, back) ← Text.cutFirst typeMark raw
  if !front.contains '.' && registry.contains (.ofList front) then
    return (.ofList front, back)
  else none

/-- Reads one entry. -/
def decodeEntry (registry : Registry) (raw : List Char) : CellEntry :=
  match knownType? registry raw with
  | some (type, target) => { type := type, target := .ofList (Text.trim target) }
  | none => { type := registry.defaultName, target := .ofList raw }

/-- The entries of a cell. -/
def decode (registry : Registry) (cell : String) : List CellEntry :=
  (rawEntries cell).map (decodeEntry registry)

/-- What stands before the first colon of an entry, if it looks like a type and
is none. -/
def unknownType? (registry : Registry) (raw : List Char) : Option String := do
  let (front, _) ← Text.cutFirst typeMark raw
  let name := String.ofList (Text.trim front)
  if isTypeName name && !registry.contains name then return name else none

end Cell

namespace Relations

variable {σ : Type} [Store σ]

/-- The cell of a term's relations. -/
def cellOf (r : Relations) (id : TermId) : RelationM σ String := do
  let related ← r.relationsOf id
  return Cell.encode r.registry
    (related.map fun t => { type := t.type, target := t.term.fullName })

end Relations

/-! ## Rows -/

/-- A row of a sheet: its number, the fully qualified name of a term, and the
cell of its relations. -/
structure Row where
  number : Nat
  source : String
  cell : String
deriving DecidableEq, Repr, Inhabited

/-- Why a row is not imported. -/
inductive RowProblem
  | unknownTerm (name : String)
  /-- The target is unknown, and the entry begins like a type that is not
  registered. -/
  | unknownType (name : String)
  | refused (error : RelationError)
deriving DecidableEq, Repr

/-- The sentence for a problem. -/
def RowProblem.message : RowProblem → String
  | .unknownTerm name => "Term not found: " ++ name
  | .unknownType name => "Invalid relation type: " ++ name
  | .refused error => error.message

/-- A row that was not imported. -/
structure RowFailure where
  number : Nat
  problem : RowProblem
deriving DecidableEq, Repr

/-- What came of an import. -/
structure Report where
  processed : Nat := 0
  passed : Nat := 0
  failed : Nat := 0
  /-- Relations written, a relation and what it implies counted once. -/
  added : Nat := 0
  failures : List RowFailure := []
deriving DecidableEq, Repr, Inhabited

/-- How an import went as a whole. -/
def Report.status (report : Report) : String :=
  if report.failed = 0 then "success"
  else if report.passed = 0 then "failure"
  else "partialSuccess"

/-- Notes what came of a row: the relations it added, or its problem. -/
def Report.note (report : Report) (row : Row) : Except RowProblem Nat → Report
  | .ok added =>
    { report with
      processed := report.processed + 1
      passed := report.passed + 1
      added := report.added + added }
  | .error problem =>
    { report with
      processed := report.processed + 1
      failed := report.failed + 1
      failures := report.failures ++ [{ number := row.number, problem := problem }] }

/-- A computation on a store about one row. -/
abbrev RowM (σ : Type) := ExceptT RowProblem (StateM σ)

/-- A request about relations, made for a row. -/
def RowM.ofRequest {σ α : Type} (act : RelationM σ α) : RowM σ α :=
  ExceptT.mk fun s =>
    match act.run s with
    | (.ok a, s) => (.ok a, s)
    | (.error error, s) => (.error (.refused error), s)

namespace Relations

variable {σ : Type} [Store σ]

/-- Checks one entry: its target is found, and the relation may be added. -/
def checkEntry (r : Relations) (source : TermId) (raw : List Char) : RowM σ (TermId × String) := do
  let entry := Cell.decodeEntry r.registry raw
  match ← RowM.ofRequest (r.termByName entry.target) with
  | none =>
    match Cell.unknownType? r.registry raw with
    | some name => throw (.unknownType name)
    | none => throw (.unknownTerm entry.target)
  | some target =>
    let type ← RowM.ofRequest (r.validate source target.id entry.type)
    return (target.id, type.name)

/-- Imports one row and counts the relations it adds. -/
def importRow (r : Relations) (row : Row) : RowM σ Nat := do
  let some source ← RowM.ofRequest (r.termByName row.source) | throw (.unknownTerm row.source)
  let checked ← (Cell.rawEntries row.cell).mapM (r.checkEntry source.id)
  let outcomes ← checked.mapM fun (target, type) =>
    RowM.ofRequest (r.add source.id target type)
  return outcomes.countP (!·.isNoop)

/-- Imports rows one after the other. -/
def importRows (r : Relations) (rows : List Row) : StateM σ Report :=
  rows.foldlM (fun report row => do return report.note row (← (r.importRow row).run)) {}

end Relations

end Thesaurus
