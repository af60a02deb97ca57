import Thesaurus.Message.Engine
import Thesaurus.Project.Settings
import Thesaurus.Sheet.Document
import Thesaurus.Store.Ordered

/-!
# Workspaces

An opened project: its settings, the registry they describe, and its store. The
store of a project is an ordered store whose snapshot lies in a folder of its own. A
snapshot is one text, a JSON document with the four tables, in which the store survives
from one run of a program to the next.

## Main definitions

* `OrderedStore.snapshot`, `OrderedStore.ofSnapshot`: a store as a text, and back.
* `Workspace.load`: opens the project of a folder.
* `Workspace.ask`, `Workspace.change`: computations on its store.
-/

namespace Thesaurus

/-! ## Snapshots -/

namespace OrderedStore

/-- The store as JSON. Names are written with the identities they lead to, edges
by their keys. -/
def toJson (s : OrderedStore) : Json.Value :=
  .object [
    ("terms", .array (s.terms.values.map Term.toJson)),
    ("names", .array (s.names.entries.map fun e => .strings [e.1, e.2.text])),
    ("glossaries", .array (s.glossaries.values.map Glossary.toJson)),
    ("edges", .strings s.edgeKeys.keys)]

/-- Adds the names of a snapshot. -/
def putNames (s : OrderedStore) (pairs : List (List String)) : OrderedStore :=
  let names := pairs.foldl (fun names pair =>
    match pair with
    | [name, id] => names.insert name ⟨id⟩
    | _ => names) s.names
  { s with names := names }

/-- The fields of a snapshot. -/
def fields : List (Json.Field OrderedStore) := [
  .of "terms" .refused (.list Term.decoder) fun terms s =>
    { s with terms := terms.foldl (fun table t => table.insert t.id.text t) .empty },
  .of "names" .refused (.list (.list .string)) fun pairs s => s.putNames pairs,
  .of "glossaries" .refused (.list Glossary.decoder) fun glossaries s =>
    glossaries.foldl putGlossary s,
  .of "edges" .refused (.list .string) fun keys s =>
    { s with edgeKeys := keys.foldl (fun table key => table.insert key ()) .empty }]

/-- Reads snapshots. -/
def decoder : Json.Decoder OrderedStore := .record "Snapshot" fields {}

/-- The snapshot of a store. -/
def snapshot (s : OrderedStore) : String := s.toJson.compact

/-- The store of a snapshot. -/
def ofSnapshot (text : String) : Except Json.Problem OrderedStore := Json.ofText decoder text

end OrderedStore

/-! ## Projects -/

/-- Why a command fails. -/
inductive CommandError
  | settings (error : SettingsError)
  /-- The folder of the store cannot be used. -/
  | storeFolder (error : FileError)
  /-- The snapshot of the store cannot be read. -/
  | snapshot (problem : Json.Problem)
  | file (error : FileError)
  | document (problem : Json.Problem)
  | registry (error : RegistryError)
  | store (error : StoreError)
  | relation (error : RelationError)
  | exported (error : ExportError)
  | glossaryNotFound (id : String)
  | termNotFound (key : String)
  /-- The parent of a new term belongs to another glossary. -/
  | foreignParent (fullName : String)
  /-- Connections are not served. -/
  | notServed
deriving Repr

/-- The sentence for an error. -/
def CommandError.message : CommandError → String
  | .settings error => error.message
  | .storeFolder error => "Database error: IO error: " ++ error.message
  | .snapshot problem => "Database error: " ++ problem.message
  | .file error => error.message
  | .document problem => problem.message
  | .registry error => error.message
  | .store error => error.message
  | .relation error => error.message
  | .exported error => error.message
  | .glossaryNotFound id => "Glossary not found: " ++ id
  | .termNotFound key => "Term not found: " ++ key
  | .foreignParent fullName => "Parent " ++ fullName ++ " belongs to another glossary"
  | .notServed => "Connections are not served"

/-- A computation on files that carries out a command. -/
abbrev CommandM (m : Type → Type) := ExceptT CommandError m

/-- An opened project. -/
structure Workspace where
  root : String
  settings : Settings
  registry : Registry
  store : OrderedStore

namespace Workspace

/-- The folder of a store that holds its snapshot. -/
def snapshotsIn (storePath : String) : String := pathIn storePath "snapshots"

/-- The snapshot of a store. -/
def snapshotIn (storePath : String) : String :=
  pathIn (snapshotsIn storePath) "thesaurus-current.json"

variable {m : Type → Type} [Monad m] [FileSystem m]

/-- Opens the store of a folder. A store that is not there is begun, so that it is
known from the start whether it can be kept. -/
def openStore (storePath : String) : CommandM m OrderedStore := do
  ExceptT.adapt .storeFolder (FileSystem.makeFolders (m := m) (snapshotsIn storePath))
  if ← FileSystem.isPresent (m := m) (snapshotIn storePath) then
    let text ← ExceptT.adapt .storeFolder (FileSystem.read (m := m) (snapshotIn storePath))
    ExceptT.mk (pure ((OrderedStore.ofSnapshot text).mapError .snapshot))
  else
    ExceptT.adapt .storeFolder
      (FileSystem.write (m := m) (snapshotIn storePath) OrderedStore.empty.snapshot)
    return .empty

/-- Opens the project of a folder. -/
def load (root : String) : CommandM m Workspace := do
  let settings ← ExceptT.adapt .settings (Settings.loadOrDefault (m := m) root)
  let registry ← ExceptT.mk (pure (settings.registry.mapError CommandError.settings))
  let store ← openStore (settings.storeIn root)
  return { root := root, settings := settings, registry := registry, store := store }

/-- What messages, and commands alike, are answered with. -/
def engine (ws : Workspace) : Message.Engine := .ofSettings ws.registry ws.settings

/-- Runs a computation that leaves the store as it is. -/
def ask {ε α : Type} (ws : Workspace) (cause : ε → CommandError)
    (act : ExceptT ε (StateM OrderedStore) α) : CommandM m α :=
  ExceptT.mk (pure ((act.run ws.store).1.mapError cause))

/-- Runs a computation on the store and keeps what it wrote, also if it fails. -/
def change {ε α : Type} (ws : Workspace) (cause : ε → CommandError)
    (act : ExceptT ε (StateM OrderedStore) α) : CommandM m α := do
  let (result, store) := act.run ws.store
  ExceptT.adapt .storeFolder
    (FileSystem.write (m := m) (snapshotIn (ws.settings.storeIn ws.root)) store.snapshot)
  ExceptT.mk (pure (result.mapError cause))

/-- What a store call that came to nothing means. -/
def failure : Fault → CommandError
  | .refused error => .store error
  | .stalled => .exported .stalled

/-- What it means that the relation types are not replaced. -/
def replacementFailure : ReplacementError → CommandError
  | .store fault => failure fault
  | .registry error => .registry error

/-- The glossary of an identity. -/
def glossary (ws : Workspace) (id : String) : CommandM m Glossary := do
  match ← ws.ask failure (Store.glossary ⟨id⟩) with
  | some g => return g
  | none => throw (.glossaryNotFound id)

/-- The live term of an identity or, if nothing has that identity, of a fully
qualified name. -/
def termOf (ws : Workspace) (key : String) : CommandM m Term := do
  let found ←
    match ← ws.ask failure (Store.term ⟨key⟩) with
    | some t => pure (some t)
    | none => ws.ask failure (Store.termByName key)
  match found.bind Term.live? with
  | some t => return t
  | none => throw (.termNotFound key)

end Workspace

end Thesaurus
