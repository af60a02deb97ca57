import Thesaurus.Rdf.Documents
import Thesaurus.Rdf.Vocabulary
import Thesaurus.Relations
import Thesaurus.Text.Characters

/-!
# Glossaries as concept schemes

The export of a glossary: the glossary becomes a concept scheme and each of its
live terms a concept with its label, definition and synonyms. A term under a
parent of the same glossary is narrower than that, any other is a top concept.
With relations included, the way down from the parent is stated too, and every
relation under the predicate of its type; a synonym also lends its label.

The calls to the store are made without a time limit.

## Main definitions

* `Exporter.triples`: the statements about a glossary.
* `Exporter.document`: the same in a format.
-/

namespace Thesaurus

/-- Why an export fails. -/
inductive ExportError
  | glossaryNotFound (id : GlossaryId)
  | store (error : StoreError)
  | relation (error : RelationError)
  /-- The store never answers. -/
  | stalled
deriving DecidableEq, Repr

/-- The sentence for an error. -/
def ExportError.message : ExportError → String
  | .glossaryNotFound id => "Glossary not found: " ++ id.text
  | .store error => "Store error: " ++ error.message
  | .relation error => error.message
  | .stalled => "Store error: no answer"

/-- A computation on a store that exports something. -/
abbrev ExportM (σ : Type) := ExceptT ExportError (StateM σ)

/-- Makes a call to the store without a time limit. -/
def ExportM.ofStore {σ α : Type} (act : StoreM σ α) : ExportM σ α :=
  ExceptT.mk fun s =>
    match act.run s with
    | (.ok a, s) => (.ok a, s)
    | (.error (.refused error), s) => (.error (.store error), s)
    | (.error .stalled, s) => (.error .stalled, s)

/-- Makes a request about relations as part of an export. -/
def ExportM.ofRequest {σ α : Type} (act : RelationM σ α) : ExportM σ α :=
  ExceptT.mk fun s =>
    match act.run s with
    | (.ok a, s) => (.ok a, s)
    | (.error error, s) => (.error (.relation error), s)

/-- What exports are made with. -/
structure Exporter where
  registry : Registry
  /-- The IRI that all IRIs of glossaries and terms begin with. -/
  base : String

namespace Exporter

open Rdf

/-- The exporter with a base of any form: a slash is added unless the base ends
with one, or with `#`. -/
def withBase (registry : Registry) (base : String) : Exporter where
  registry := registry
  base :=
    match base.toList.getLast? with
    | some '/' | some '#' => base
    | _ => base ++ "/"

/-- The IRI of a glossary. -/
def glossaryIri (x : Exporter) (id : GlossaryId) : String :=
  x.base ++ "glossary/" ++ Text.percentEncoded id.text

/-- The IRI of a term. -/
def termIri (x : Exporter) (id : TermId) : String :=
  x.base ++ "glossaryTerm/" ++ Text.percentEncoded id.text

/-- A text that has more than blanks, trimmed. -/
def shown? (text : Option String) : Option String :=
  match text.map Text.trimmed with
  | some t => if t.isEmpty then none else some t
  | none => none

/-- The definition of a subject, if there is one. -/
def definitions (subject : String) (description : Option String) : List Triple :=
  ((shown? description).map fun text =>
    { subject := subject, predicate := skos "definition", object := .literal text : Triple }).toList

/-- The statements about a glossary itself. -/
def schemeTriples (x : Exporter) (g : Glossary) : List Triple :=
  let scheme := x.glossaryIri g.id
  [{ subject := scheme, predicate := rdfType, object := .iri (skos "ConceptScheme") },
    { subject := scheme, predicate := rdfs "label", object := .literal g.label }]
    ++ definitions scheme g.description

/-- Where a term stands: below its parent, if that is among the members, else at
the top of the scheme. -/
def placeTriples (x : Exporter) (g : Glossary) (members : List Term) (withRelations : Bool)
    (t : Term) : List Triple :=
  let concept := x.termIri t.id
  match t.parent.filter fun p => members.any (·.id == p) with
  | some parent =>
    { subject := concept, predicate := skos "broader", object := .iri (x.termIri parent) } ::
      if withRelations then
        [{ subject := x.termIri parent, predicate := skos "narrower", object := .iri concept }]
      else []
  | none =>
    [{ subject := x.glossaryIri g.id, predicate := skos "hasTopConcept", object := .iri concept }]

/-- The statements about a term itself. -/
def conceptTriples (x : Exporter) (g : Glossary) (members : List Term) (withRelations : Bool)
    (t : Term) : List Triple :=
  let concept := x.termIri t.id
  [{ subject := concept, predicate := rdfType, object := .iri (skos "Concept") },
    { subject := concept, predicate := skos "prefLabel", object := .literal t.label },
    { subject := concept, predicate := skos "inScheme", object := .iri (x.glossaryIri g.id) }]
    ++ definitions concept t.description
    ++ (t.synonyms.filter fun s => !Text.isAllBlank s).map
        (fun s => { subject := concept, predicate := skos "altLabel", object := .literal s })
    ++ x.placeTriples g members withRelations t

/-- The statements of a relation to a live term. -/
def relationTriples (x : Exporter) (source : TermId) (type : RelationType) (target : Term) :
    List Triple :=
  let concept := x.termIri source
  { subject := concept, predicate := predicateIri type, object := .iri (x.termIri target.id) } ::
    if type.name = "synonym" then
      [{ subject := concept, predicate := skos "altLabel", object := .literal target.label }]
    else []

variable {σ : Type} [Store σ]

/-- The statements of one edge: none if its type is not registered or its target
is gone. -/
def edgeTriples (x : Exporter) (e : Edge) : ExportM σ (List Triple) := do
  match x.registry.get? e.type with
  | none => return []
  | some type =>
    match (← ExportM.ofStore (Store.term e.target)).bind Term.live? with
    | none => return []
    | some target => return x.relationTriples e.source type target

/-- The statements of the relations that leave a term. -/
def relationsOfTerm (x : Exporter) (t : Term) : ExportM σ (List Triple) := do
  let edges ← ExportM.ofStore (Store.edgesFrom t.id [])
  return (← edges.mapM x.edgeTriples).flatten

/-- The statements about a glossary, with or without relations. -/
def triples (x : Exporter) (id : GlossaryId) (withRelations : Bool) : ExportM σ TripleSet := do
  let some g ← ExportM.ofStore (Store.glossary id) | throw (.glossaryNotFound id)
  let members ← ExportM.ofStore (Store.members id)
  let own := x.schemeTriples g ++ members.flatMap (x.conceptTriples g members withRelations)
  let related ← if withRelations then members.mapM x.relationsOfTerm else pure []
  return .ofList (own ++ related.flatten)

/-- A set of statements in a format. -/
def write (s : TripleSet) : Format → String
  | .turtle => Turtle.write s
  | .rdfXml => Xml.write s
  | .nTriples => NTriples.write s
  | .jsonLd => JsonLd.write s

/-- The document of a glossary. -/
def document (x : Exporter) (id : GlossaryId) (format : Format) (withRelations : Bool) :
    ExportM σ String := do
  return write (← x.triples id withRelations) format

end Exporter

end Thesaurus
