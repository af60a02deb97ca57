import Thesaurus.Files.Tree
import Thesaurus.Json.Records
import Thesaurus.Json.Value

/-!
# Project settings

The settings of a project: its relation types and a handful of numbers and texts.
They are kept in a JSON document in which every field may be missing, so a partial
document, or none, still describes a working project.

## Main definitions

* `Settings.ofText`, `Settings.text`: the document read and written.
* `Settings.load`, `Settings.loadOrDefault`, `Settings.save`: the same on files.
-/

namespace Thesaurus

open Json (Value Decoder)

/-- The folder of a project that holds what this program keeps. -/
def projectFolder : String := ".glossa"

/-- The settings of a project. -/
structure Settings where
  version : String := "1.0"
  /-- Where the store lies, from the root of the project. -/
  storePath : String := pathIn projectFolder "store"
  /-- The time limit of a store call in milliseconds. -/
  timeout : UInt64 := 5000
  /-- The largest number of terms in a neighbourhood. -/
  maxNodes : UInt64 := 500
  /-- The IRI that exported IRIs begin with. -/
  base : String := "https://open-metadata.org/"
  defaultType : String := RelationType.defaultName
  types : List RelationType := RelationType.builtins
deriving DecidableEq, Repr, Inhabited

/-- Why settings cannot be used. -/
inductive SettingsError
  | file (error : FileError)
  | document (problem : Json.Problem)
  | types (error : RegistryError)
deriving DecidableEq, Repr

/-- The sentence for an error. -/
def SettingsError.message : SettingsError → String
  | .file error => "IO error: " ++ error.message
  | .document problem => "Invalid config: " ++ problem.message
  | .types error => "Invalid relation types: " ++ error.message

namespace Settings

/-! ## The document -/

/-- The settings as JSON. -/
def toJson (s : Settings) : Value :=
  .object [
    ("version", .string s.version),
    ("storePath", .string s.storePath),
    ("operationTimeoutMs", .nat s.timeout.toNat),
    ("maxGraphNodes", .nat s.maxNodes.toNat),
    ("baseUri", .string s.base),
    ("defaultRelationType", .string s.defaultType),
    ("relationTypes", .array (s.types.map RelationType.toJson))]

/-- The fields of the document; each may be missing. -/
def fields : List (Json.Field Settings) := [
  .of "version" .allowed .string fun version s => { s with version := version },
  .of "storePath" .allowed (.text "path string") fun path s => { s with storePath := path },
  .of "operationTimeoutMs" .allowed (.natural "u64") fun n s =>
    { s with timeout := .ofNat n },
  .of "maxGraphNodes" .allowed (.natural "usize") fun n s => { s with maxNodes := .ofNat n },
  .of "baseUri" .allowed .string fun base s => { s with base := base },
  .of "defaultRelationType" .allowed .string fun name s => { s with defaultType := name },
  .of "relationTypes" .allowed (.list RelationType.decoder) fun types s =>
    { s with types := types }]

/-- Reads settings over the defaults. -/
def decoder : Decoder Settings := .record "GlossaConfig" fields {}

/-- The settings of a document. -/
def ofText (text : String) : Except SettingsError Settings :=
  (Json.ofText decoder text).mapError .document

/-- The document of settings. -/
def text (s : Settings) : String := s.toJson.pretty

/-! ## Use -/

/-- The registry of the configured types. -/
def registry (s : Settings) : Except SettingsError Registry :=
  (Registry.ofTypes s.types s.defaultType).mapError .types

/-- The settings with the types of a registry. -/
def withRegistry (s : Settings) (r : Registry) : Settings :=
  { s with types := r.types, defaultType := r.defaultName }

/-- Where the store of a project lies. -/
def storeIn (s : Settings) (root : String) : String := pathIn root s.storePath

/-! ## Files -/

/-- The folder of a project with the document. -/
def folderIn (root : String) : String := pathIn root projectFolder

/-- The document of a project. -/
def pathOf (root : String) : String := pathIn (folderIn root) "config.json"

variable {m : Type → Type} [Monad m] [FileSystem m]

/-- Reads the settings of a file. -/
def load (path : String) : ExceptT SettingsError m Settings := do
  let text ← (FileSystem.read path : ExceptT FileError m String).adapt .file
  ExceptT.mk (pure (ofText text))

/-- The settings of a project, the defaults if it has no document. -/
def loadOrDefault (root : String) : ExceptT SettingsError m Settings := do
  if ← FileSystem.isPresent (m := m) (pathOf root) then load (pathOf root) else return {}

/-- Writes the document of a project, and the folder if it is not there. -/
def save (s : Settings) (root : String) : ExceptT SettingsError m Unit :=
  ExceptT.adapt .file do
    (FileSystem.makeFolders (folderIn root) : ExceptT FileError m Unit)
    FileSystem.write (pathOf root) s.text

end Settings

end Thesaurus
