import Thesaurus.Json.Records
import Thesaurus.Rdf.Scheme

/-!
# Responses

What comes back for a message: a result or an error, never both and never
neither, and the identity of the message.

## Main definitions

* `Answer`: the results of the methods.
* `Refusal`: the errors, each with its code.
* `Response`: either of them with the identity of its message.
-/

namespace Thesaurus.Message

open Json (Value)

/-- The result of a method. -/
inductive Answer
  | mutated (outcome : Outcome)
  | relations (term : TermId) (listed : List RelatedTerm)
  | graph (around : Neighbourhood)
  | types (registered : List RelationType) (defaultName : String)
  | usage (counts : Table Nat)
  | document (format : Rdf.Format) (text : String)
  | cell (term : TermId) (text : String)

/-- The result of a method as JSON. -/
def Answer.toJson : Answer → Value
  | .mutated outcome => outcome.toJson
  | .relations term listed =>
    .object [
      ("term", .string term.text),
      ("relations", .array (listed.map RelatedTerm.toJson))]
  | .graph around => around.toJson
  | .types registered defaultName =>
    .object [
      ("types", .array (registered.map RelationType.toJson)),
      ("defaultType", .string defaultName)]
  | .usage counts =>
    .object [("usage", countsToJson counts), ("total", .nat counts.total)]
  | .document format text =>
    .object [
      ("format", .string format.name),
      ("mimeType", .string format.mediaType),
      ("document", .string text)]
  | .cell term text => .object [("term", .string term.text), ("cell", .string text)]

/-- Why a message gets no result. -/
inductive Refusal
  /-- The text is no message. -/
  | unreadable
  | unknownMethod (name : String)
  | parameters (problem : Json.Problem)
  | glossaryNotFound (id : GlossaryId)
  | relation (error : RelationError)
  /-- The store never answered. -/
  | stalled
deriving DecidableEq, Repr

namespace Refusal

/-- The code of an error. -/
def code : Refusal → Int
  | .unreadable => -32700
  | .unknownMethod _ => -32601
  | .parameters _ => -32602
  | .stalled => -32603
  | .glossaryNotFound _ => -32001
  | .relation (.invalidType _) => -32010
  | .relation (.termNotFound _) => -32011
  | .relation (.selfRelation _) => -32012
  | .relation (.crossesGlossaries ..) => -32013
  | .relation (.unavailable _) => -32050

/-- The sentence for an error. -/
def message : Refusal → String
  | .unreadable => "Parse error"
  | .unknownMethod name => "Method not found: " ++ name
  | .parameters problem => problem.message
  | .stalled => ExportError.stalled.message
  | .glossaryNotFound id => (ExportError.glossaryNotFound id).message
  | .relation error => error.message

/-- What else the error says: of errors about relations, whether a retry may
help. -/
def extra : Refusal → List (String × Value)
  | .relation error => [("data", .object [("retryable", .bool error.isRetryable)])]
  | _ => []

/-- An error as JSON. -/
def toJson (r : Refusal) : Value :=
  .object ([("code", .int r.code), ("message", .string r.message)] ++ r.extra)

/-- The refusal for an export that fails. -/
def ofExport : ExportError → Refusal
  | .glossaryNotFound id => .glossaryNotFound id
  | .relation error => .relation error
  | .store error => .relation (.ofStore error)
  | .stalled => .stalled

end Refusal

/-- A response. -/
structure Response where
  outcome : Except Refusal Answer
  /-- The identity of the message. -/
  id : Option Value

namespace Response

/-- Whether the response carries an error. -/
def isError (r : Response) : Bool := !r.outcome.isOk

/-- The field of the result or of the error. -/
def outcomeField (r : Response) : String × Value :=
  match r.outcome with
  | .ok answer => ("result", answer.toJson)
  | .error refusal => ("error", refusal.toJson)

/-- A response as JSON. -/
def toJson (r : Response) : Value :=
  .object [("jsonrpc", .string "2.0"), r.outcomeField, ("id", r.id.getD .null)]

end Response

end Thesaurus.Message
