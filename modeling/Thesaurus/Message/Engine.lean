import Thesaurus.Message.Request
import Thesaurus.Message.Response
import Thesaurus.Project.Settings

/-!
# Answering messages

One engine answers all messages over one store: it holds the registry and what the
settings say about time limits, sizes and IRIs.

## Main definitions

* `Engine.respond`: from the text of a message to its response.
-/

namespace Thesaurus.Message

open Json (Value Decoder)

/-- What messages are answered with. -/
structure Engine where
  relations : Relations
  /-- The largest number of terms in a neighbourhood. -/
  maxNodes : Nat
  exporter : Exporter

namespace Engine

/-- The engine of a registry under settings. -/
def ofSettings (registry : Registry) (s : Settings) : Engine where
  relations := { registry := registry, timeout := s.timeout.toNat }
  maxNodes := s.maxNodes.toNat
  exporter := .withBase registry s.base

/-- The registry. -/
def registry (e : Engine) : Registry := e.relations.registry

/-- The neighbourhood of a term, no larger than the settings allow. -/
def neighbourhood {σ : Type} [Store σ] (e : Engine) (root : TermId) (depth : Nat)
    (filter : TypeFilter) : RelationM σ Neighbourhood :=
  e.relations.neighbourhood root depth filter (some e.maxNodes)

/-- A computation on a store that answers a message. -/
abbrev AnswerM (σ : Type) := ExceptT Refusal (StateM σ)

variable {σ : Type} [Store σ]

/-- The parameters of a method. -/
def parameters {α : Type} (d : Decoder α) (v : Value) : AnswerM σ α :=
  ExceptT.mk (pure ((Json.ofValue d v).mapError .parameters))

/-- A request about relations as part of an answer. -/
def ofRequest {α : Type} (act : RelationM σ α) : AnswerM σ α :=
  ExceptT.adapt Refusal.relation act

/-- An export as part of an answer. -/
def ofExport {α : Type} (act : ExportM σ α) : AnswerM σ α :=
  ExceptT.adapt Refusal.ofExport act

/-- The answer to a method with its parameters. -/
def answer (e : Engine) (method : Method) (v : Value) : AnswerM σ Answer :=
  match method with
  | .addRelation => do
    let p ← parameters RelationParameters.decoder v
    let type := p.type.getD e.registry.defaultName
    return .mutated (← ofRequest (e.relations.add ⟨p.source⟩ ⟨p.target⟩ type))
  | .removeRelation => do
    let p ← parameters RelationParameters.decoder v
    let type := p.type.getD e.registry.defaultName
    return .mutated (← ofRequest (e.relations.remove ⟨p.source⟩ ⟨p.target⟩ type))
  | .listRelations => do
    let p ← parameters TermParameters.decoder v
    return .relations ⟨p.term⟩ (← ofRequest (e.relations.relationsOf ⟨p.term⟩))
  | .buildGraph => do
    let p ← parameters GraphParameters.decoder v
    return .graph (← ofRequest (e.neighbourhood ⟨p.term⟩ p.depth (p.types.getD [])))
  | .listTypes => return .types e.registry.types e.registry.defaultName
  | .countUsage => return .usage (← ofRequest e.relations.usage)
  | .exportDocument => do
    let p ← parameters ExportParameters.decoder v
    let format := Rdf.Format.ofName (p.format.getD Rdf.Format.turtle.name)
    return .document format
      (← ofExport (e.exporter.document ⟨p.glossary⟩ format p.withRelations))
  | .exportCell => do
    let p ← parameters TermParameters.decoder v
    return .cell ⟨p.term⟩ (← ofRequest (e.relations.cellOf ⟨p.term⟩))

/-- The outcome of a request. -/
def handle (e : Engine) (r : Request) : StateM σ (Except Refusal Answer) :=
  match Method.ofName? r.method with
  | some method => (e.answer method r.parameters).run
  | none => return .error (.unknownMethod r.method)

/-- The response to the text of a message. -/
def respond (e : Engine) (text : String) : StateM σ Response :=
  match Request.ofText text with
  | .ok request => do return { outcome := ← e.handle request, id := request.id }
  | .error _ => return { outcome := .error .unreadable, id := none }

end Engine

end Thesaurus.Message
