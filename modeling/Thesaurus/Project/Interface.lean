import Thesaurus.CommandLine.Read
import Thesaurus.Project.Command

/-!
# The command line of the program

The commands as rules of a command line, and what a line that keeps the rules asks
for.

## Main definitions

* `Interface.program`: the rules.
* `Invocation.ofWords`: what a command line asks for.
-/

namespace Thesaurus

open CommandLine

namespace Interface

/-! ## Values -/

/-- The number that decimal digits denote, none without digits. -/
def decimal? (digits : List Char) : Option Nat :=
  if digits.isEmpty || !digits.all Char.isDigit then none
  else some (digits.foldl (fun n c => 10 * n + (c.toNat - '0'.toNat)) 0)

/-- A count of 64 bits; a plus may stand before it. -/
def size? (text : String) : Option Nat :=
  let digits :=
    match text.toList with
    | '+' :: digits => digits
    | digits => digits
  (decimal? digits).filter (· < UInt64.size)

/-- A port number; a sign may stand before it, a minus before zero only. -/
def port? (text : String) : Option Nat :=
  match text.toList with
  | '-' :: digits => (decimal? digits).filter (· = 0)
  | '+' :: digits => (decimal? digits).filter (· < UInt16.size)
  | digits => (decimal? digits).filter (· < UInt16.size)

/-- A path is any text but the empty one. -/
def isPath (text : String) : Bool := !text.isEmpty

/-! ## Options that several commands have -/

/-- The type of a relation. -/
def typeOption (help : String) : OptionRule where
  long := "type"
  short := some 't'
  kind := .value "RELATION_TYPE"
  help := help

/-- An explanation for what is added. -/
def descriptionOption : OptionRule where
  long := "description"
  kind := .value "DESCRIPTION"

/-- The form of what is shown. -/
def jsonOption : OptionRule where
  long := "json"
  help := "Output as JSON instead of formatted text"

/-- Where a document goes. -/
def outputOption : OptionRule where
  long := "output"
  short := some 'o'
  kind := .value "OUTPUT"
  accepts := isPath

/-! ## Commands -/

/-- The commands about glossaries. -/
def glossaryCommand : CommandRule where
  name := "glossary"
  about := "Manage glossaries"
  commands := [{
    name := "add"
    about := "Register a glossary"
    arguments := [{ placeholder := "ID" }, { placeholder := "NAME" }]
    options := [descriptionOption] }]

/-- The commands about terms. -/
def termCommand : CommandRule where
  name := "term"
  about := "Manage terms"
  commands := [{
    name := "add"
    about := "Register a term"
    arguments := [{ placeholder := "ID" }, { placeholder := "NAME" }]
    options := [
      { long := "glossary", short := some 'g', kind := .value "GLOSSARY", help := "Glossary id"
        isRequired := true },
      { long := "parent", kind := .value "PARENT"
        help := "Parent term (id or fully qualified name)" },
      { long := "display-name", kind := .value "DISPLAY_NAME" },
      descriptionOption,
      { long := "synonym", kind := .value "SYNONYMS", help := "Alternative label (repeatable)"
        isRepeatable := true }] }]

/-- Relating two terms. -/
def relateCommand : CommandRule where
  name := "relate"
  about := "Relate two terms (by id or fully qualified name)"
  arguments := [{ placeholder := "FROM" }, { placeholder := "TO" }]
  options := [typeOption "Relation type (defaults to the configured default)"]

/-- Removing a relation. -/
def unrelateCommand : CommandRule where
  name := "unrelate"
  about := "Remove a relation between two terms"
  arguments := [{ placeholder := "FROM" }, { placeholder := "TO" }]
  options := [typeOption ""]

/-- Listing relations. -/
def relatedCommand : CommandRule where
  name := "related"
  about := "List the related terms of a term"
  arguments := [{ placeholder := "TERM" }]
  options := [jsonOption]

/-- Showing a neighbourhood. -/
def graphCommand : CommandRule where
  name := "graph"
  about := "Show the relation graph around a term"
  arguments := [{ placeholder := "TERM" }]
  options := [
    { long := "depth", short := some 'd', kind := .value "DEPTH"
      help := "Maximum hops from the term"
      default := some "2", accepts := fun text => (size? text).isSome },
    { long := "type", short := some 't', kind := .value "TYPES"
      help := "Only follow these relation types", isRepeatable := true },
    jsonOption]

/-- Listing or replacing the relation types. -/
def typesCommand : CommandRule where
  name := "types"
  about := "List relation types"
  options := [
    { long := "apply", kind := .value "APPLY"
      help := "Replace the relation types from a settings file", accepts := isPath }]

/-- The exports. -/
def exportCommand : CommandRule where
  name := "export"
  about := "Export a glossary"
  commands := [
    { name := "rdf"
      about := "Export as RDF (turtle, rdfxml, ntriples, jsonld)"
      arguments := [{ placeholder := "GLOSSARY" }]
      options := [
        { long := "format", short := some 'f', kind := .value "FORMAT", default := some "turtle" },
        { long := "no-relations", help := "Leave typed relations and skos:narrower out" },
        outputOption] },
    { name := "csv"
      about := "Export the relation sheet as CSV"
      arguments := [{ placeholder := "GLOSSARY" }]
      options := [outputOption] }]

/-- The import. -/
def importCommand : CommandRule where
  name := "import"
  about := "Import relations from a CSV sheet"
  arguments := [
    { placeholder := "FILE", help := "CSV file with fullyQualifiedName,relatedTerms columns"
      accepts := isPath }]

/-- Answering messages over the network. -/
def serveCommand : CommandRule where
  name := "serve"
  about := "Start the Glossa server"
  options := [
    { long := "port", short := some 'p', kind := .value "PORT", help := "Port to listen on"
      default := some "7433", accepts := fun text => (port? text).isSome },
    { long := "headless", help := "Headless mode: bind to 0.0.0.0 for remote access" }]

/-- The program. -/
def program : CommandRule where
  name := "glossa"
  about := "Typed relations between business glossary terms"
  options := [
    { long := "verbose", short := some 'v', help := "Enable verbose output", isGlobal := true },
    { long := "dir", short := some 'C', kind := .value "DIR"
      help := "Project directory (defaults to current directory)", default := some "."
      isGlobal := true, accepts := isPath }]
  commands := [
    { name := "init", about := "Initialize Glossa in the project directory" },
    glossaryCommand,
    termCommand,
    relateCommand,
    unrelateCommand,
    relatedCommand,
    graphCommand,
    typesCommand,
    { name := "usage", about := "Show how many relations use each type" },
    exportCommand,
    importCommand,
    serveCommand]

/-- What the option for the version shows. -/
def versionText : String := "glossa 0.1.0\n"

/-! ## Meaning -/

/-- The value of an option that is given once at most. -/
def value? (given : List Given) (long : String) : Option String :=
  (valuesOf given long).head?.join

/-- Whether a switch is given. -/
def isSet (given : List Given) (long : String) : Bool := !(valuesOf given long).isEmpty

/-- The command that is asked for by commands with these names and arguments. -/
def command? (given : List Given) : Option Command :=
  match given.map (·.command), (given.getLast?.map (·.arguments)).getD [] with
  | [_, "init"], [] => some .init
  | [_, "glossary", "add"], [id, name] =>
    some (.addGlossary id name (value? given "description"))
  | [_, "term", "add"], [id, name] =>
    some (.addTerm {
      id := id
      name := name
      glossary := (value? given "glossary").getD ""
      parent := value? given "parent"
      displayName := value? given "display-name"
      description := value? given "description"
      synonyms := (valuesOf given "synonym").reduceOption })
  | [_, "relate"], [source, target] => some (.relate source target (value? given "type"))
  | [_, "unrelate"], [source, target] => some (.unrelate source target (value? given "type"))
  | [_, "related"], [term] => some (.related term (isSet given "json"))
  | [_, "graph"], [term] =>
    some (.graph term (((value? given "depth").bind size?).getD 2)
      (valuesOf given "type").reduceOption (isSet given "json"))
  | [_, "types"], [] =>
    match value? given "apply" with
    | some file => some (.applyTypes file)
    | none => some .listTypes
  | [_, "usage"], [] => some .usage
  | [_, "export", "rdf"], [glossary] =>
    some (.exportDocument glossary ((value? given "format").getD "turtle")
      (!isSet given "no-relations") (value? given "output"))
  | [_, "export", "csv"], [glossary] =>
    some (.exportSheet glossary (value? given "output"))
  | [_, "import"], [file] => some (.importSheet file)
  | [_, "serve"], [] =>
    some (.serve (((value? given "port").bind port?).getD 7433) (isSet given "headless"))
  | _, _ => none

end Interface

/-- What a command line asks for. -/
inductive Invocation
  /-- A command on the project of a folder. -/
  | run (root : String) (command : Command)
  /-- A text to be shown. -/
  | shown (path : List String) (text : String)
  /-- The line breaks the rules; the names lead to the command it was meant for. -/
  | refused (path : List String)
deriving DecidableEq, Repr, Inhabited

/-- What the words of a command line ask for. -/
def Invocation.ofWords (words : List String) : Invocation :=
  match CommandLine.read Interface.program Interface.versionText words with
  | .shown path text => .shown path text
  | .refused path => .refused path
  | .complete given =>
    match Interface.command? given with
    | some command => .run ((Interface.value? given "dir").getD ".") command
    | none => .refused (given.map (·.command))

end Thesaurus
