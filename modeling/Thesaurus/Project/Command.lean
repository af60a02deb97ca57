import Thesaurus.Project.Workspace

/-!
# Commands

What can be done with a project, one command at a time: each command opens the
project, does its work and answers with the text to be shown. A command that fails
shows nothing but its error.

## Main definitions

* `Command`: the commands with their arguments.
* `Command.run`: carries a command out.
-/

namespace Thesaurus

/-- A term to be added, as it is described on the command line. -/
structure NewTerm where
  id : String
  name : String
  glossary : String
  /-- The identity or the fully qualified name of the parent. -/
  parent : Option String := none
  displayName : Option String := none
  description : Option String := none
  synonyms : List String := []
deriving DecidableEq, Repr, Inhabited

/-- A command. Terms are given by identity or fully qualified name. -/
inductive Command
  | init
  | addGlossary (id name : String) (description : Option String)
  | addTerm (term : NewTerm)
  | relate (source target : String) (type : Option String)
  | unrelate (source target : String) (type : Option String)
  | related (term : String) (asJson : Bool)
  | graph (term : String) (depth : Nat) (types : List String) (asJson : Bool)
  | listTypes
  /-- Replaces the relation types by those of a file. -/
  | applyTypes (file : String)
  | usage
  | exportDocument (glossary format : String) (withRelations : Bool) (output : Option String)
  | exportSheet (glossary : String) (output : Option String)
  | importSheet (file : String)
  | serve (port : Nat) (headless : Bool)
deriving DecidableEq, Repr, Inhabited

/-! ## Texts -/

namespace Shown

/-- What stands before a success. -/
def tick : String := "✓ "

/-- A text filled up with spaces to a width. -/
def padded (width : Nat) (text : String) : String :=
  text ++ .ofList (List.replicate (width - text.length) ' ')

/-- A number in digits. -/
def count (n : Nat) : String := .ofList (Nat.toDigits 10 n)

/-- Lines of text. -/
def lines (texts : List String) : String := "".intercalate (texts.map (· ++ "\n"))

/-- What a type implies backwards. -/
def pairing (t : RelationType) : String :=
  if t.isSymmetric then "symmetric"
  else
    match t.inverse with
    | some inverse => "inverse " ++ inverse
    | none => "one-way"

/-- A relation type as a line of the list. -/
def typeLine (defaultName : String) (t : RelationType) : String :=
  (if t.name = defaultName then "*" else " ") ++ " " ++ padded 16 t.name ++ " "
    ++ padded 14 t.category.name ++ " " ++ padded 22 (pairing t) ++ " "
    ++ (if t.crossesGlossaries then "" else "same glossary")

/-- A count by name as a line. -/
def countLine (name : String) (n : Nat) : String := "  " ++ padded 16 name ++ " " ++ count n

/-- The counts of all types and their sum. -/
def usage (counts : Table Nat) : String :=
  lines (counts.entries.map (fun e => countLine e.1 e.2) ++ [countLine "total" counts.total])

/-- A new relation with what it implies. -/
def newRelation (source target : Term) (type : String) (outcome : Outcome) : String :=
  let implied := (outcome.edges.drop 1).head?.map fun e =>
    "  implied: " ++ target.fullName ++ " " ++ e.type ++ " " ++ source.fullName
  lines ((tick ++ source.fullName ++ " " ++ type ++ " " ++ target.fullName) :: implied.toList)

/-- The relations of a term. -/
def relations (t : Term) (related : List RelatedTerm) : String :=
  if related.isEmpty then lines [t.fullName ++ " has no relations"]
  else
    lines (t.fullName :: related.map fun r => "  " ++ padded 16 r.type ++ " " ++ r.term.fullName)

/-- A term of a neighbourhood, indented by its depth. -/
def nodeLine (n : Neighbour) : String :=
  "  " ++ .ofList (List.replicate (2 * n.depth) ' ') ++ n.fullName
    ++ (if n.isolated then " (isolated)" else "")

/-- An edge of a neighbourhood. -/
def edgeLine (e : DrawnEdge) : String :=
  "  " ++ e.edge.source.text ++ " -[" ++ e.label ++ "]-> " ++ e.edge.target.text

/-- A neighbourhood. No time is measured, so the time of the search is shown as 0. -/
def neighbourhood (t : Term) (maxNodes : Nat) (g : Neighbourhood) : String :=
  let summary := count g.nodes.length ++ " nodes, " ++ count g.edges.length ++ " edges within "
    ++ count g.maxDepth ++ " hop(s) of " ++ t.fullName ++ " (0ms)"
  let edges := if g.edges.isEmpty then [] else "" :: g.edges.map edgeLine
  let cut := if g.truncated then ["⚠ Result truncated at " ++ count maxNodes ++ " nodes"] else []
  lines (summary :: g.nodes.map nodeLine ++ edges ++ cut)

/-- How many of the rows that failed are shown. -/
def maxFailures : Nat := 10

/-- What came of an import. -/
def report (r : Report) : String :=
  let summary := r.status ++ " " ++ count r.processed ++ " rows: " ++ count r.passed
    ++ " passed, " ++ count r.failed ++ " failed, " ++ count r.added ++ " relations added"
  let failures := (r.failures.take maxFailures).map fun f =>
    "  row " ++ count f.number ++ " - " ++ f.problem.message
  let more := r.failures.length - maxFailures
  lines (summary :: failures ++ if more = 0 then [] else ["  ... and " ++ count more ++ " more"])

end Shown

/-! ## New relation types -/

/-- The document that replaces the relation types. Without a default type the
present one stays. -/
structure TypesDocument where
  defaultType : Option String := none
  types : List RelationType := []
deriving Inhabited

/-- Reads the document of new relation types. -/
def TypesDocument.decoder : Json.Decoder TypesDocument :=
  .record "RelationSettings" [
    .of "defaultRelationType" .allowed (.optional .string) fun name d =>
      { d with defaultType := name },
    .of "relationTypes" .refused (.list RelationType.decoder) fun types d =>
      { d with types := types }] {}

/-! ## Carrying out -/

namespace Command

variable {m : Type → Type} [Monad m] [FileSystem m]

/-- Begins a project in a folder that has none. -/
def runInit (root : String) : CommandM m String := do
  let document := Settings.pathOf root
  if ← FileSystem.isPresent (m := m) document then
    return Shown.lines [Shown.tick ++ "Already initialized"]
  ExceptT.adapt .settings (Settings.save (m := m) {} root)
  return Shown.lines [
    Shown.tick ++ "Initialized Glossa in " ++ root,
    "  Edit " ++ document ++ " to customize relation types"]

/-- Adds or replaces a glossary. -/
def runAddGlossary (ws : Workspace) (g : Glossary) : CommandM m String := do
  let write : StoreM OrderedStore Unit := do set ((← get).putGlossary g)
  ws.change Workspace.failure write
  return Shown.lines [Shown.tick ++ "Added glossary " ++ g.label]

/-- A new term at its place: below its parent, if it has one, which has to belong
to the same glossary. -/
def placed (ws : Workspace) (g : Glossary) (new : NewTerm) : CommandM m Term := do
  let t := Term.topLevel ⟨new.id⟩ g new.name
  match new.parent with
  | none => return t
  | some key =>
    let parent ← ws.termOf key
    if parent.glossary ≠ g.id then throw (.foreignParent parent.fullName)
    return t.under parent

/-- Adds or replaces a term. -/
def runAddTerm (ws : Workspace) (new : NewTerm) : CommandM m String := do
  let g ← ws.glossary new.glossary
  let t ← placed ws g new
  let t := { t with
    displayName := new.displayName
    description := new.description
    synonyms := new.synonyms }
  ws.change Workspace.failure (OrderedStore.storeTerm t)
  return Shown.lines [Shown.tick ++ "Added term " ++ t.fullName ++ " (" ++ t.id.text ++ ")"]

/-- Relates two terms. -/
def runRelate (ws : Workspace) (source target : String) (type : Option String) :
    CommandM m String := do
  let source ← ws.termOf source
  let target ← ws.termOf target
  let type := type.getD ws.registry.defaultName
  let outcome ← ws.change .relation (ws.engine.relations.add source.id target.id type)
  if outcome.isNoop then return Shown.lines [Shown.tick ++ "Already related"]
  return Shown.newRelation source target type outcome

/-- Removes a relation. -/
def runUnrelate (ws : Workspace) (source target : String) (type : Option String) :
    CommandM m String := do
  let source ← ws.termOf source
  let target ← ws.termOf target
  let type := type.getD ws.registry.defaultName
  let outcome ← ws.change .relation (ws.engine.relations.remove source.id target.id type)
  if outcome.isNoop then
    return Shown.lines [
      "No " ++ type ++ " relation between " ++ source.fullName ++ " and " ++ target.fullName]
  return Shown.lines [Shown.tick ++ "Removed " ++ Shown.count outcome.changed ++ " edge(s)"]

/-- Lists the relations of a term. -/
def runRelated (ws : Workspace) (term : String) (asJson : Bool) : CommandM m String := do
  let t ← ws.termOf term
  let related ← ws.ask .relation (ws.engine.relations.relationsOf t.id)
  if asJson then return Shown.lines [(Json.Value.array (related.map RelatedTerm.toJson)).pretty]
  return Shown.relations t related

/-- Shows the neighbourhood of a term. -/
def runGraph (ws : Workspace) (term : String) (depth : Nat) (types : List String)
    (asJson : Bool) : CommandM m String := do
  let t ← ws.termOf term
  let g ← ws.ask .relation (ws.engine.neighbourhood t.id depth types)
  if asJson then return Shown.lines [g.toJson.pretty]
  return Shown.neighbourhood t ws.engine.maxNodes g

/-- Lists the relation types. -/
def runListTypes (ws : Workspace) : String :=
  Shown.lines (ws.registry.types.map (Shown.typeLine ws.registry.defaultName))

/-- Replaces the relation types by those of a file. No type may be left out of
which there are edges. -/
def runApplyTypes (ws : Workspace) (file : String) : CommandM m String := do
  let text ← ExceptT.adapt .file (FileSystem.read (m := m) file)
  let document ← ExceptT.mk (pure ((Json.ofText TypesDocument.decoder text).mapError
    CommandError.document))
  let defaultName := document.defaultType.getD ws.registry.defaultName
  let registry ← ws.ask Workspace.replacementFailure
    (ws.registry.replaceOver document.types defaultName)
  ExceptT.adapt .settings ((ws.settings.withRegistry registry).save (m := m) ws.root)
  return Shown.lines [
    Shown.tick ++ "Saved " ++ Shown.count registry.types.length ++ " relation types"]

/-- Counts the edges of each type. -/
def runUsage (ws : Workspace) : CommandM m String := do
  return Shown.usage (← ws.ask .relation ws.engine.relations.usage)

/-- Writes a document to a file, or shows it. -/
def deliver (output : Option String) (document : String) : CommandM m String := do
  match output with
  | none => return document
  | some path =>
    ExceptT.adapt .file (FileSystem.write (m := m) path document)
    return Shown.lines [Shown.tick ++ "Exported to " ++ path]

/-- Exports a glossary. -/
def runExportDocument (ws : Workspace) (glossary format : String) (withRelations : Bool)
    (output : Option String) : CommandM m String := do
  let document ← ws.ask .exported
    (ws.engine.exporter.document ⟨glossary⟩ (.ofName format) withRelations)
  deliver output document

/-- Exports the relations of a glossary. -/
def runExportSheet (ws : Workspace) (glossary : String) (output : Option String) :
    CommandM m String := do
  let g ← ws.glossary glossary
  let document ← ws.ask .exported (ws.engine.relations.sheetOf g.id)
  deliver output document

/-- Imports relations. -/
def runImportSheet (ws : Workspace) (file : String) : CommandM m String := do
  let text ← ExceptT.adapt .file (FileSystem.read (m := m) file)
  let act : ExceptT CommandError (StateM OrderedStore) Report :=
    ExceptT.lift (ws.engine.relations.importRows (rowsOfSheet text))
  return Shown.report (← ws.change id act)

/-- Carries out a command on the project of a folder. -/
def run (root : String) (command : Command) : CommandM m String := do
  match command with
  | .init => runInit root
  | .serve _ _ => throw .notServed
  | .addGlossary id name description =>
    runAddGlossary (← Workspace.load root)
      { id := ⟨id⟩, name := name, description := description }
  | .addTerm term => runAddTerm (← Workspace.load root) term
  | .relate source target type => runRelate (← Workspace.load root) source target type
  | .unrelate source target type => runUnrelate (← Workspace.load root) source target type
  | .related term asJson => runRelated (← Workspace.load root) term asJson
  | .graph term depth types asJson => runGraph (← Workspace.load root) term depth types asJson
  | .listTypes => return runListTypes (← Workspace.load root)
  | .applyTypes file => runApplyTypes (← Workspace.load root) file
  | .usage => runUsage (← Workspace.load root)
  | .exportDocument glossary format withRelations output =>
    runExportDocument (← Workspace.load root) glossary format withRelations output
  | .exportSheet glossary output => runExportSheet (← Workspace.load root) glossary output
  | .importSheet file => runImportSheet (← Workspace.load root) file

end Command

end Thesaurus
