import Thesaurus.Json.Decode
import Thesaurus.Neighbourhood
import Thesaurus.Sheet.Import

/-!
# Records as JSON

The JSON forms of what the library keeps and answers. The fields stand in the
order in which documents show them, and every field is written, null where
nothing is known. Glossaries, terms and relation types are also read back.

## Main definitions

* `toJson` of each record.
* `Glossary.decoder`, `Term.decoder`, `RelationType.decoder`.
-/

namespace Thesaurus

open Json (Value Decoder)

/-! ## Glossaries and terms -/

/-- A glossary as JSON. -/
def Glossary.toJson (g : Glossary) : Value :=
  .object [
    ("id", .string g.id.text),
    ("name", .string g.name),
    ("displayName", .optionalString g.displayName),
    ("description", .optionalString g.description)]

/-- A term as JSON. -/
def Term.toJson (t : Term) : Value :=
  .object [
    ("id", .string t.id.text),
    ("name", .string t.name),
    ("fullyQualifiedName", .string t.fullName),
    ("displayName", .optionalString t.displayName),
    ("glossary", .string t.glossary.text),
    ("parent", .optionalString (t.parent.map (·.text))),
    ("description", .optionalString t.description),
    ("synonyms", .strings t.synonyms),
    ("deleted", .bool t.deleted)]

/-- A term as listings carry it, as JSON. -/
def TermRef.toJson (t : TermRef) : Value :=
  .object [
    ("id", .string t.id.text),
    ("fullyQualifiedName", .string t.fullName),
    ("displayName", .string t.displayName)]

/-- Reads glossaries. -/
def Glossary.decoder : Decoder Glossary :=
  .record "GlossaryRecord" [
    .of "id" .refused .string fun id g => { g with id := ⟨id⟩ },
    .of "name" .refused .string fun name g => { g with name := name },
    .of "displayName" .allowedInObjects (.optional .string) fun name g =>
      { g with displayName := name },
    .of "description" .allowedInObjects (.optional .string) fun text g =>
      { g with description := text }] default

/-- The fields of a term. Only texts that may be missing may be left out. -/
def Term.fields : List (Json.Field Term) := [
  .of "id" .refused .string fun id t => { t with id := ⟨id⟩ },
  .of "name" .refused .string fun name t => { t with name := name },
  .of "fullyQualifiedName" .refused .string fun name t => { t with fullName := name },
  .of "displayName" .allowedInObjects (.optional .string) fun name t =>
    { t with displayName := name },
  .of "glossary" .refused .string fun id t => { t with glossary := ⟨id⟩ },
  .of "parent" .allowedInObjects (.optional .string) fun id t =>
    { t with parent := id.map TermId.mk },
  .of "description" .allowedInObjects (.optional .string) fun text t =>
    { t with description := text },
  .of "synonyms" .refused (.list .string) fun names t => { t with synonyms := names },
  .of "deleted" .refused .bool fun deleted t => { t with deleted := deleted }]

/-- Reads terms. -/
def Term.decoder : Decoder Term := .record "TermRecord" Term.fields default

/-! ## Relation types -/

/-- A relation type as JSON. -/
def RelationType.toJson (t : RelationType) : Value :=
  .object [
    ("name", .string t.name),
    ("displayName", .string t.displayName),
    ("description", .optionalString t.description),
    ("category", .string t.category.name),
    ("isSymmetric", .bool t.isSymmetric),
    ("isTransitive", .bool t.isTransitive),
    ("inverseRelation", .optionalString t.inverse),
    ("isCrossGlossaryAllowed", .bool t.crossesGlossaries),
    ("isSystemDefined", .bool t.isBuiltin),
    ("color", .string t.color),
    ("rdfPredicate", .optionalString t.predicate)]

/-- The categories under their names. -/
def Category.byName : List (String × Category) :=
  [.hierarchical, .associative, .equivalence].map fun c => (c.name, c)

/-- The fields of a relation type. -/
def RelationType.fields : List (Json.Field RelationType) := [
  .of "name" .refused .string fun name t => { t with name := name },
  .of "displayName" .refused .string fun name t => { t with displayName := name },
  .of "description" .allowed (.optional .string) fun text t => { t with description := text },
  .of "category" .allowed (.choice Category.byName) fun category t =>
    { t with category := category },
  .of "isSymmetric" .allowed .bool fun b t => { t with isSymmetric := b },
  .of "isTransitive" .allowed .bool fun b t => { t with isTransitive := b },
  .of "inverseRelation" .allowed (.optional .string) fun name t => { t with inverse := name },
  .of "isCrossGlossaryAllowed" .allowed .bool fun b t => { t with crossesGlossaries := b },
  .of "isSystemDefined" .allowed .bool fun b t => { t with isBuiltin := b },
  .of "color" .refused .string fun color t => { t with color := color },
  .of "rdfPredicate" .allowed (.optional .string) fun iri t => { t with predicate := iri }]

/-- Reads relation types. -/
def RelationType.decoder : Decoder RelationType :=
  .record "RelationType" RelationType.fields { name := "", displayName := "", color := "" }

/-! ## Edges and answers about them -/

/-- The fields of an edge. -/
def Edge.jsonFields (e : Edge) : List (String × Value) := [
  ("from", .string e.source.text),
  ("to", .string e.target.text),
  ("relationType", .string e.type)]

/-- An edge as JSON. -/
def Edge.toJson (e : Edge) : Value := .object e.jsonFields

/-- A drawn edge as JSON. -/
def DrawnEdge.toJson (e : DrawnEdge) : Value :=
  .object (e.edge.jsonFields ++ [("label", .string e.label), ("color", .string e.color)])

/-- An outcome as JSON. -/
def Outcome.toJson (o : Outcome) : Value :=
  .object [("edges", .array (o.edges.map Edge.toJson)), ("changed", .nat o.changed)]

/-- A listed relation as JSON. -/
def RelatedTerm.toJson (t : RelatedTerm) : Value :=
  .object [("relationType", .string t.type), ("term", t.term.toJson)]

/-- Counts by name as JSON. -/
def countsToJson (counts : Table Nat) : Value :=
  .object (counts.entries.map fun e => (e.1, .nat e.2))

/-- A term of a neighbourhood as JSON. -/
def Neighbour.toJson (n : Neighbour) : Value :=
  .object [
    ("id", .string n.id.text),
    ("label", .string n.label),
    ("fullyQualifiedName", .string n.fullName),
    ("depth", .nat n.depth),
    ("isolated", .bool n.isolated)]

/-- A neighbourhood as JSON. Documents also tell how many milliseconds the search
took; this library measures nothing and writes 0. -/
def Neighbourhood.toJson (g : Neighbourhood) : Value :=
  .object [
    ("root", .string g.root.text),
    ("nodes", .array (g.nodes.map Neighbour.toJson)),
    ("edges", .array (g.edges.map DrawnEdge.toJson)),
    ("maxDepth", .nat g.maxDepth),
    ("truncated", .bool g.truncated),
    ("queryTimeMs", .nat 0)]

/-- A row that was not imported, as JSON. -/
def RowFailure.toJson (f : RowFailure) : Value :=
  .object [("row", .nat f.number), ("reason", .string f.problem.message)]

/-- A report as JSON. -/
def Report.toJson (r : Report) : Value :=
  .object [
    ("rowsProcessed", .nat r.processed),
    ("rowsPassed", .nat r.passed),
    ("rowsFailed", .nat r.failed),
    ("relationsAdded", .nat r.added),
    ("failures", .array (r.failures.map RowFailure.toJson))]

end Thesaurus
