import Thesaurus.Json.Decode

/-!
# Requests

A message asks for one method by its name, with parameters whose form depends on
the method, and carries an identity that the response repeats. The parameters are
read in a second step, after the method is known.

## Main definitions

* `Request.ofText`: a message read.
* `Method`: the methods.
* the parameters of the methods, each with its decoder.
-/

namespace Thesaurus.Message

open Json (Value Decoder)

/-- A message. -/
structure Request where
  version : String := ""
  method : String := ""
  parameters : Value := .null
  id : Option Value := none
deriving Repr, Inhabited

namespace Request

/-- The fields of a message; only the method has to be named. -/
def fields : List (Json.Field Request) := [
  .of "jsonrpc" .allowed .string fun version r => { r with version := version },
  .of "method" .refused .string fun method r => { r with method := method },
  .of "params" .allowed .any fun parameters r => { r with parameters := parameters },
  .of "id" .allowed (.optional .any) fun id r => { r with id := id }]

/-- Reads messages. -/
def decoder : Decoder Request := .record "Request" fields {}

/-- The message of a text. -/
def ofText (text : String) : Except Json.Problem Request := Json.ofText decoder text

end Request

/-- What can be asked for. -/
inductive Method
  | addRelation
  | removeRelation
  | listRelations
  | buildGraph
  | listTypes
  | countUsage
  | exportDocument
  | exportCell
deriving DecidableEq, Repr

/-- The methods under their names. -/
def Method.byName : List (String × Method) := [
  ("relation.add", .addRelation),
  ("relation.remove", .removeRelation),
  ("relation.list", .listRelations),
  ("graph.build", .buildGraph),
  ("types.list", .listTypes),
  ("types.usage", .countUsage),
  ("export.rdf", .exportDocument),
  ("export.cell", .exportCell)]

/-- The method of a name. -/
def Method.ofName? (name : String) : Option Method := byName.lookup name

/-! ## Parameters -/

/-- A relation to be added or removed; without a type it is of the default type. -/
structure RelationParameters where
  source : String := ""
  target : String := ""
  type : Option String := none
deriving DecidableEq, Repr, Inhabited

/-- Reads the parameters of a mutation. -/
def RelationParameters.decoder : Decoder RelationParameters :=
  .record "RelationParams" [
    .of "from" .refused .string fun source p => { p with source := source },
    .of "to" .refused .string fun target p => { p with target := target },
    .of "relationType" .allowed (.optional .string) fun type p => { p with type := type }] {}

/-- A term that is asked about. -/
structure TermParameters where
  term : String := ""
deriving DecidableEq, Repr, Inhabited

/-- Reads the parameters of a question about a term. -/
def TermParameters.decoder : Decoder TermParameters :=
  .record "TermParams" [.of "term" .refused .string fun term p => { p with term := term }] {}

/-- The neighbourhood that is asked for. -/
structure GraphParameters where
  term : String := ""
  depth : Nat := 2
  types : Option (List String) := none
deriving DecidableEq, Repr, Inhabited

/-- Reads the parameters of a neighbourhood. -/
def GraphParameters.decoder : Decoder GraphParameters :=
  .record "GraphParams" [
    .of "term" .refused .string fun term p => { p with term := term },
    .of "depth" .allowed (.natural "usize") fun depth p => { p with depth := depth },
    .of "relationTypes" .allowed (.optional (.list .string)) fun types p =>
      { p with types := types }] {}

/-- The document that is asked for. -/
structure ExportParameters where
  glossary : String := ""
  format : Option String := none
  withRelations : Bool := true
deriving DecidableEq, Repr, Inhabited

/-- Reads the parameters of an export. -/
def ExportParameters.decoder : Decoder ExportParameters :=
  .record "ExportRdfParams" [
    .of "glossary" .refused .string fun glossary p => { p with glossary := glossary },
    .of "format" .allowed (.optional .string) fun format p => { p with format := format },
    .of "includeRelations" .allowed .bool fun b p => { p with withRelations := b }] {}

end Thesaurus.Message
