import Thesaurus.Json.Value
import Thesaurus.Rdf.TripleSet
import Thesaurus.Rdf.Vocabulary
import Thesaurus.Text.Characters

/-!
# Documents

The four formats of an export, and how each writes a set of statements. A format
may be asked for under several names in any case; a name that is unknown asks for
Turtle.

N-Triples has one statement a line, every IRI in full. The other three shorten what
a namespace covers, and take the statements subject by subject, in the order in
which subjects first occur.

## Main definitions

* `Format`, `Format.ofName`: the formats and their names.
* `NTriples.write`, `Turtle.write`, `Xml.write`, `JsonLd.write`: the document of a
  set in each of them.
-/

namespace Thesaurus.Rdf

/-! ## Formats -/

/-- A document format. -/
inductive Format
  | turtle
  | rdfXml
  | nTriples
  | jsonLd
deriving DecidableEq, Repr, Inhabited

namespace Format

/-- The name of a format. -/
def name : Format → String
  | .turtle => "turtle"
  | .rdfXml => "rdfxml"
  | .nTriples => "ntriples"
  | .jsonLd => "jsonld"

/-- The media type of documents. -/
def mediaType : Format → String
  | .turtle => "text/turtle"
  | .rdfXml => "application/rdf+xml"
  | .nTriples => "application/n-triples"
  | .jsonLd => "application/ld+json"

/-- The extension of file names. -/
def fileExtension : Format → String
  | .turtle => "ttl"
  | .rdfXml => "rdf"
  | .nTriples => "nt"
  | .jsonLd => "jsonld"

/-- The format that a name asks for. -/
def ofName (name : String) : Format :=
  match String.ofList ((Text.trim name.toList).map Char.toLower) with
  | "turtle" | "ttl" => .turtle
  | "rdfxml" | "rdf/xml" | "xml" | "rdf" => .rdfXml
  | "ntriples" | "n-triples" | "nt" => .nTriples
  | "jsonld" | "json-ld" | "json" => .jsonLd
  | _ => .turtle

end Format

/-! ## N-Triples

Literals stand between quotes; the backslash, the quote and the three line and tab
characters are escaped. -/

/-- A character inside a literal. -/
def literalChar (c : Char) : List Char :=
  if c = '\\' then ['\\', '\\']
  else if c = '"' then ['\\', '"']
  else if c = '\n' then ['\\', 'n']
  else if c = '\r' then ['\\', 'r']
  else if c = '\t' then ['\\', 't']
  else [c]

/-- A literal as it is written. -/
def literalText (text : String) : String :=
  .ofList ('"' :: text.toList.flatMap literalChar ++ ['"'])

/-- An IRI in full. -/
def fullIri (iri : String) : String := "<" ++ iri ++ ">"

namespace NTriples

/-- An object as it is written. -/
def objectText : Object → String
  | .iri iri => fullIri iri
  | .literal text => literalText text

/-- A statement as a line. -/
def line (t : Triple) : String :=
  fullIri t.subject ++ " " ++ fullIri t.predicate ++ " " ++ objectText t.object ++ " .\n"

/-- The document of a set. -/
def write (s : TripleSet) : String := "".intercalate (s.toList.map line)

end NTriples

/-! ## Turtle

The declarations of the namespaces, then one paragraph for each subject with one
line for each statement. IRIs are shortened where a namespace covers them, and
the predicate of classes is written `a`. -/

namespace Turtle

/-- An IRI, shortened where possible. -/
def iriText (iri : String) : String := (compact? iri).getD (fullIri iri)

/-- A predicate as it is written. -/
def predicateText (predicate : String) : String :=
  if predicate = rdfType then "a" else iriText predicate

/-- An object as it is written. -/
def objectText : Object → String
  | .iri iri => iriText iri
  | .literal text => literalText text

/-- A statement as a line of its subject's paragraph. -/
def statement (t : Triple) : String :=
  "\n    " ++ predicateText t.predicate ++ " " ++ objectText t.object

/-- The paragraph of a subject. -/
def paragraph (subject : String) (statements : List Triple) : String :=
  "\n" ++ iriText subject ++ " ;".intercalate (statements.map statement) ++ " .\n"

/-- The declaration of a namespace. -/
def declaration (short full : String) : String := "@prefix " ++ short ++ ": <" ++ full ++ "> .\n"

/-- The document of a set. -/
def write (s : TripleSet) : String :=
  "".intercalate (namespaces.map fun n => declaration n.1 n.2)
    ++ "".intercalate (s.groups.map fun g => paragraph g.1 g.2)

end Turtle

/-! ## RDF/XML

One description for each subject with one element for each statement. Elements
are named by their predicates, so every predicate needs a namespace with a short
name: one of the vocabulary if it covers the predicate, else one that the
document declares for itself as `ns0`, `ns1` and so on, in the order in which
predicates need them. -/

namespace Xml

/-- A character of an attribute or of text. -/
def escapedChar (c : Char) : List Char :=
  match c with
  | '<' => "&lt;".toList
  | '>' => "&gt;".toList
  | '&' => "&amp;".toList
  | '\'' => "&apos;".toList
  | '"' => "&quot;".toList
  | c => [c]

/-- A text as it stands in an attribute or an element. -/
def escaped (text : String) : String := .ofList (text.toList.flatMap escapedChar)

/-- The namespace and the local name of an IRI: it is cut behind the last `#` or
`/`, unless nothing follows. -/
def splitIri (iri : List Char) : List Char × List Char :=
  let name := (iri.reverse.takeWhile fun c => c != '#' && c != '/').reverse
  if name.length < iri.length && !name.isEmpty then (iri.take (iri.length - name.length), name)
  else (iri, [])

/-- The namespace of an IRI. -/
def namespaceOf (iri : String) : String := .ofList (splitIri iri.toList).1

/-- The namespaces that predicates need beyond the vocabulary, each once. -/
def extraNamespaces (s : TripleSet) : List String :=
  ((s.toList.map (·.predicate)).filterMap fun p =>
    if (compact? p).isSome then none else some (namespaceOf p)).eraseDups

/-- The short name of the extra namespace of an index. -/
def extraName (index : Nat) : String := "ns" ++ .ofList (Nat.toDigits 10 index)

/-- The element name of a predicate. -/
def elementName (extra : List String) (predicate : String) : String :=
  match compact? predicate with
  | some short => short
  | none =>
    let (space, name) := splitIri predicate.toList
    let shortName :=
      match extra.idxOf? (.ofList space) with
      | some index => extraName index
      | none => "ns"
    shortName ++ ":" ++ .ofList name

/-- The declaration of a namespace. -/
def declaration (short full : String) : String :=
  "\n    xmlns:" ++ short ++ "=\"" ++ escaped full ++ "\""

/-- A statement as an element of its subject's description. -/
def property (extra : List String) (t : Triple) : String :=
  let name := elementName extra t.predicate
  match t.object with
  | .iri iri => "    <" ++ name ++ " rdf:resource=\"" ++ escaped iri ++ "\"/>\n"
  | .literal text => "    <" ++ name ++ ">" ++ escaped text ++ "</" ++ name ++ ">\n"

/-- The description of a subject. -/
def description (extra : List String) (subject : String) (statements : List Triple) : String :=
  "  <rdf:Description rdf:about=\"" ++ escaped subject ++ "\">\n"
    ++ "".intercalate (statements.map (property extra)) ++ "  </rdf:Description>\n"

/-- The declared namespaces: those of the vocabulary, then the extra ones. -/
def declared (extra : List String) : List (String × String) :=
  namespaces ++ extra.mapIdx fun index full => (extraName index, full)

/-- The document of a set. -/
def write (s : TripleSet) : String :=
  let extra := extraNamespaces s
  "<?xml version=\"1.0\" encoding=\"UTF-8\"?>\n<rdf:RDF"
    ++ "".intercalate ((declared extra).map fun n => declaration n.1 n.2) ++ ">\n"
    ++ "".intercalate (s.groups.map fun g => description extra g.1 g.2) ++ "</rdf:RDF>\n"

end Xml

/-! ## JSON-LD

A context with the namespaces and one node for each subject. A node lists its
classes under `@type` and all other objects under the shortened predicate, every
one in an array. The fields of all objects are sorted by name. -/

namespace JsonLd

/-- An IRI, shortened where possible. -/
def iriText (iri : String) : String := (compact? iri).getD iri

/-- The field of a node under which a statement is listed, and its entry there. -/
def entry (t : Triple) : String × Json.Value :=
  match t.object with
  | .iri iri =>
    if t.predicate = rdfType then ("@type", .string (iriText iri))
    else (iriText t.predicate, .object [("@id", .string (iriText iri))])
  | .literal text => (iriText t.predicate, .object [("@value", .string text)])

/-- Adds an entry to the array of its field; a field that holds no array is
replaced by one. -/
def addEntry (node : List (String × Json.Value)) (e : String × Json.Value) :
    List (String × Json.Value) :=
  match node.lookup e.1 with
  | some (.array items) => Json.insertField e.1 (.array (items ++ [e.2])) node
  | _ => Json.insertField e.1 (.array [e.2]) node

/-- The node of a subject. -/
def node (subject : String) (statements : List Triple) : Json.Value :=
  .object ((statements.map entry).foldl addEntry [("@id", .string (iriText subject))])

/-- The context of every document. -/
def context : Json.Value :=
  .object (Json.sortedFields (namespaces.map fun n => (n.1, .string n.2)))

/-- The document of a set as a value. -/
def document (s : TripleSet) : Json.Value :=
  .object [
    ("@context", context),
    ("@graph", .array (s.groups.map fun g => node g.1 g.2))]

/-- The document of a set. -/
def write (s : TripleSet) : String := (document s).pretty

end JsonLd

end Thesaurus.Rdf
