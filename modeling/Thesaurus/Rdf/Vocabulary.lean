import Thesaurus.Registry
import Thesaurus.Text.Cut

/-!
# IRIs

The namespaces of the exports, with the short names under which documents declare
them, and the predicates that relation types stand for. An identifier of any
characters stands inside an IRI in percent-encoded form: the unreserved ASCII
characters as they are, every other byte of the UTF-8 form as `%` and two capital
hexadecimal digits.

## Main definitions

* `expand`, `compact?`: from the short form of an IRI to the full one and back.
* `predicateIri`: the predicate of a relation type.
* `Text.percentEncoded`: the percent-encoded form of a text.
-/

namespace Thesaurus.Rdf

/-! ## Namespaces -/

/-- The namespace of RDF itself. -/
def rdfNamespace : String := "http://www.w3.org/1999/02/22-rdf-syntax-ns#"

/-- The namespace of RDF Schema. -/
def rdfsNamespace : String := "http://www.w3.org/2000/01/rdf-schema#"

/-- The namespace of SKOS. -/
def skosNamespace : String := "http://www.w3.org/2004/02/skos/core#"

/-- The namespace of Dublin Core terms. -/
def dctNamespace : String := "http://purl.org/dc/terms/"

/-- The namespace for relation types that have no counterpart elsewhere. -/
def ontologyNamespace : String := "https://open-metadata.org/ontology/"

/-- The namespaces under their short names, in the order of declaration. -/
def namespaces : List (String × String) := [
  ("rdf", rdfNamespace),
  ("rdfs", rdfsNamespace),
  ("skos", skosNamespace),
  ("dct", dctNamespace),
  ("om", ontologyNamespace)]

/-- A name of RDF itself. -/
def rdf (name : String) : String := rdfNamespace ++ name

/-- A name of RDF Schema. -/
def rdfs (name : String) : String := rdfsNamespace ++ name

/-- A name of SKOS. -/
def skos (name : String) : String := skosNamespace ++ name

/-- The predicate between a thing and its class. -/
def rdfType : String := rdf "type"

/-- The full IRI of a short form; any other text stays as it is. -/
def expand (text : String) : String :=
  match Text.cutFirst ':' text.toList with
  | some (short, name) =>
    match namespaces.lookup (.ofList short) with
    | some full => full ++ .ofList name
    | none => text
  | none => text

/-- Whether a local name may stand in a short form. -/
def isPlainName (name : List Char) : Bool :=
  !name.isEmpty && name.all fun c => c.isAlphanum || c = '_' || c = '-'

/-- What follows a text that begins another. -/
def after? (front text : List Char) : Option (List Char) :=
  if front.isPrefixOf text then some (text.drop front.length) else none

/-- The short form of an IRI, if a namespace covers it and the rest is a plain
name. -/
def compact? (iri : String) : Option String :=
  namespaces.findSome? fun (short, full) => do
    let name ← after? full.toList iri.toList
    if isPlainName name then return short ++ ":" ++ .ofList name else none

/-- The predicate that links of a type are exported under: the configured one, or
one that fits the name. -/
def predicateIri (t : RelationType) : String :=
  match t.predicate with
  | some predicate => expand predicate
  | none =>
    match t.name with
    | "broader" | "narrower" => skos t.name
    | "relatedTo" | "related" => skos "related"
    | "synonym" => skos "exactMatch"
    | "seeAlso" => rdfs "seeAlso"
    | name => ontologyNamespace ++ name

/-- Whether a predicate expresses hierarchy. -/
def isHierarchy (predicate : String) : Bool :=
  predicate == skos "broader" || predicate == skos "narrower"

end Thesaurus.Rdf

/-! ## Percent encoding -/

namespace Thesaurus.Text

/-- Letters, digits and `-`, `_`, `.`, `~`: the bytes that stand for themselves. -/
def isUnreserved (b : UInt8) : Bool :=
  let c := Char.ofNat b.toNat
  c.isAlphanum || c = '-' || c = '_' || c = '.' || c = '~'

/-- A capital hexadecimal digit. -/
def capitalHexDigit (n : Nat) : Char :=
  if n < 10 then Char.ofNat (48 + n) else Char.ofNat (55 + n)

/-- One byte of the encoded form. -/
def percentByte (b : UInt8) : List Char :=
  if isUnreserved b then [Char.ofNat b.toNat]
  else ['%', capitalHexDigit (b.toNat / 16), capitalHexDigit (b.toNat % 16)]

/-- The percent-encoded form of a text. -/
def percentEncoded (s : String) : String :=
  .ofList ((s.toList.flatMap String.utf8EncodeChar).flatMap percentByte)

example : percentEncoded "a b/ü" = "a%20b%2F%C3%BC" := by decide +kernel

end Thesaurus.Text
