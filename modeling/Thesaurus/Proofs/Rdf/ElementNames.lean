import Thesaurus.Proofs.Rdf.QualifiedNames
import Thesaurus.Proofs.Rdf.Related
import Thesaurus.Proofs.Registry.Replacement

/-!
# Element names of exports

The predicates of an export are those that every export uses and those of the relation
types whose edges it speaks of. The former, and the predicates of types without a
configured one, have local names that are names. A configured predicate may be any IRI,
and its local name becomes part of an element name as it is: nothing at all where the
IRI has neither `#` nor `/`, or something that begins with a digit.

## Main definitions

* `isAbsoluteIri`: IRIs with a scheme.
* `Exporter.fixedPredicates`: the predicates that do not depend on relation types.

## Main results

* `Exporter.predicate_cases`: where the predicates of an export come from.
* `element_names_exact`: which element names are well formed.
* `element_without_localName`: a document with an element name that is not.
-/

namespace Thesaurus

open Store LawfulStore Message Rdf Rdf.Xml

/-! ## Absolute IRIs -/

/-- Whether a character may stand in an IRI. -/
def isIriChar (c : Char) : Bool :=
  0x20 < c.toNat && !(0x7f ≤ c.toNat && c.toNat < 0xa0) && !"<>\"\x7b\x7d|\\^`".toList.contains c

/-- Whether a character may stand in a scheme. -/
def isSchemeChar (c : Char) : Bool := c.isAlphanum || c = '+' || c = '-' || c = '.'

/-- Whether a text is an IRI with a scheme. -/
def isAbsoluteIri (text : String) : Bool :=
  match Text.cutFirst ':' text.toList with
  | some (first :: scheme, rest) =>
    first.isAlpha && scheme.all isSchemeChar && rest.all isIriChar
  | _ => false

theorem isIriChar_of_isAlphanum {c : Char} (h : c.isAlphanum = true) : isIriChar c = true := by
  have hcode := isAlphanum_iff.1 h
  have hexcluded : "<>\"\x7b\x7d|\\^`".toList.contains c = false := by
    by_contra hmem
    rw [Bool.not_eq_false, List.contains_iff_mem] at hmem
    have hnone : ("<>\"\x7b\x7d|\\^`".toList.all fun d => !d.isAlphanum) = true := by decide
    have hnot := List.all_eq_true.1 hnone c hmem
    rw [h] at hnot
    cases hnot
  simp only [isIriChar, hexcluded, Bool.not_false, Bool.and_true, Bool.and_eq_true,
    decide_eq_true_eq, Bool.not_eq_true', Bool.and_eq_false_iff, decide_eq_false_iff_not]
  omega

theorem isIriChar_of_isSchemeChar {c : Char} (h : isSchemeChar c = true) : isIriChar c = true := by
  simp only [isSchemeChar, Bool.or_eq_true, decide_eq_true_eq] at h
  rcases h with ((h | rfl) | rfl) | rfl
  · exact isIriChar_of_isAlphanum h
  · decide
  · decide
  · decide

theorem isIriChar_of_isAbsoluteIri {text : String} (h : isAbsoluteIri text = true) :
    ∀ c ∈ text.toList, isIriChar c = true := by
  unfold isAbsoluteIri at h
  split at h
  · next first scheme rest hcut =>
      simp only [Bool.and_eq_true, List.all_eq_true] at h
      obtain ⟨⟨hfirst, hscheme⟩, hrest⟩ := h
      intro c hc
      rw [(Text.eq_append_of_cutFirst hcut).1] at hc
      simp only [List.cons_append, List.mem_cons, List.mem_append] at hc
      rcases hc with rfl | hc | rfl | hc
      · exact isIriChar_of_isAlphanum (by simp [Char.isAlphanum, hfirst])
      · exact isIriChar_of_isSchemeChar (hscheme c hc)
      · decide
      · exact hrest c hc
  · cases h

/-- What follows an absolute IRI may be any characters of IRIs. -/
theorem isAbsoluteIri_append {front : String} (h : isAbsoluteIri front = true) {back : String}
    (hback : ∀ c ∈ back.toList, isIriChar c = true) : isAbsoluteIri (front ++ back) = true := by
  unfold isAbsoluteIri at h
  split at h
  · next first scheme rest hcut =>
      obtain ⟨htext, hcolon⟩ := Text.eq_append_of_cutFirst hcut
      have hmore : Text.cutFirst ':' (front ++ back).toList =
          some (first :: scheme, rest ++ back.toList) := by
        rw [String.toList_append, htext, List.append_assoc, List.cons_append]
        exact Text.cutFirst_append hcolon _
      unfold isAbsoluteIri
      rw [hmore]
      simp only [Bool.and_eq_true, List.all_append, List.all_eq_true] at h ⊢
      exact ⟨h.1, h.2, hback⟩
  · cases h

/-! ## Names of elements -/

/-- A declared short name and the local name of an absolute IRI name an element. -/
theorem isName_of_qualifies {extra : List String} {name iri : String}
    (h : Qualifies (declared extra) name iri) (hiri : isAbsoluteIri iri = true) :
    Tags.IsName name.toList := by
  obtain ⟨short, full, hmem, -, rfl, -⟩ := h
  have hshort := isName_of_isTypeName (isTypeName_of_mem_declared hmem)
  rw [String.toList_append, String.toList_append]
  have hcolon : ∀ c ∈ ":".toList, Tags.endsName c = false := by
    intro c hc
    obtain rfl := List.mem_singleton.1 hc
    decide
  refine (hshort.append hcolon).append fun c hc => ?_
  rw [localName, String.toList_ofList] at hc
  have hcut := not_isCut_localName iri.toList c hc
  have hchar : isIriChar c = true := by
    refine isIriChar_of_isAbsoluteIri hiri c ?_
    rw [← splitIri_join iri.toList]
    exact List.mem_append_right _ hc
  exact Tags.endsName_eq_false (fun c => isIriChar c && !isCut c) (by decide)
    (by rw [hchar, hcut]; rfl)

theorem predicateIri_of_configured {type : RelationType} {p : String}
    (h : type.predicate = some p) : predicateIri type = expand p := by
  rw [predicateIri, h]

/-- Without a local name there is no name behind the colon. -/
theorem ne_of_localName_empty {namespaces : List (String × String)} {name iri : String}
    (h : Qualifies namespaces name iri) (hempty : localName iri = "") :
    ∀ front back, isNcName back = true → name ≠ front ++ ":" ++ back := by
  obtain ⟨short, full, -, -, hname, -⟩ := h
  rw [hempty, String.append_empty] at hname
  intro front back hvalid hequal
  rw [isNcName_eq_false_of_append (hequal.symm.trans hname)] at hvalid
  cases hvalid

/-- The predicate of a type without a configured one is a type name in the vocabulary. -/
theorem exists_of_unconfigured {type : RelationType} (hname : isTypeName type.name = true)
    (h : type.predicate = none) :
    ∃ n ∈ namespaces, ∃ name, isTypeName name = true ∧ predicateIri type = n.2 ++ name := by
  have hskos : ("skos", skosNamespace) ∈ namespaces := by decide
  have hrdfs : ("rdfs", rdfsNamespace) ∈ namespaces := by decide
  have hontology : ("om", ontologyNamespace) ∈ namespaces := by decide
  unfold predicateIri
  rw [h]
  simp only
  split
  · exact ⟨_, hskos, _, hname, rfl⟩
  · exact ⟨_, hskos, _, hname, rfl⟩
  · exact ⟨_, hskos, "related", by decide, rfl⟩
  · exact ⟨_, hskos, "related", by decide, rfl⟩
  · exact ⟨_, hskos, "exactMatch", by decide, rfl⟩
  · exact ⟨_, hrdfs, "seeAlso", by decide, rfl⟩
  · exact ⟨_, hontology, _, hname, rfl⟩

theorem isPlainName_of_isTypeName {name : String} (h : isTypeName name = true) :
    isPlainName name.toList = true := by
  simp only [isPlainName, Bool.and_eq_true, Bool.not_eq_true', List.isEmpty_eq_false_iff,
    List.all_eq_true, Bool.or_eq_true]
  exact ⟨toList_ne_nil_of_isTypeName h, fun c hc => .inl (.inl (isAlphanum_of_isTypeName h c hc))⟩

/-- Types without a configured predicate are exported under absolute IRIs whose local
names are names. -/
theorem predicateIri_of_unconfigured {type : RelationType} (hname : isTypeName type.name = true)
    (h : type.predicate = none) : isAbsoluteIri (predicateIri type) = true ∧
      isNcName (localName (predicateIri type)) = true := by
  obtain ⟨n, hn, name, htype, hpredicate⟩ := exists_of_unconfigured hname h
  have habsolute : ∀ n ∈ namespaces, isAbsoluteIri n.2 = true := by decide +kernel
  have hletters := isAlphanum_of_isTypeName htype
  rw [hpredicate]
  constructor
  · exact isAbsoluteIri_append (habsolute n hn) fun c hc => isIriChar_of_isAlphanum (hletters c hc)
  · rw [localName_of_namespace hn (isPlainName_of_isTypeName htype)]
    exact isNcName_of_isTypeName htype

/-! ## The predicates of exports -/

namespace Exporter

/-- The predicates that do not depend on relation types. -/
def fixedPredicates : List String :=
  ownPredicates ++ [skos "hasTopConcept", skos "broader", skos "narrower"]

theorem wellNamed_fixedPredicates :
    ∀ p ∈ fixedPredicates, isAbsoluteIri p = true ∧ isNcName (localName p) = true := by
  decide +kernel

section Predicates

variable {σ : Type} [EditableStore σ] [LawfulStore σ] [DirectoryStore σ] {x : Exporter} {s : σ}
  {id : GlossaryId} {g : Glossary} {withRelations : Bool} {t : Triple}

/-- Every predicate of an export is a fixed one, or that of an edge. -/
theorem predicate_cases (hs : Built s) (h : t ∈ (x.statements s id g withRelations).toList) :
    t.predicate ∈ fixedPredicates ∨ withRelations = true ∧
      ∃ e type target, x.Exports s id e type target ∧ t.predicate = predicateIri type := by
  have hplain : t ∈ (x.statements s id g false).toList → t.predicate ∈ fixedPredicates := by
    intro hmem
    rcases mem_plain_cases hs hmem with hown | htop | ⟨child, parent, -, -, -, rfl⟩
    · exact List.mem_append_left _ hown
    · rw [htop]
      exact List.mem_append_right _ (by simp)
    · exact List.mem_append_right _ (by simp [upward])
  cases withRelations with
  | false => exact .inl (hplain h)
  | true =>
      rcases (mem_statements_iff hs).1 h with hmem | hrelates
      · exact .inl (hplain hmem)
      · cases hrelates with
        | child => exact .inl (List.mem_append_right _ (by simp [downward]))
        | edge he => exact .inr ⟨rfl, _, _, _, he, rfl⟩
        | label => exact .inl (List.mem_append_left _ (by simp [ownPredicates]))

/-- The predicates of exports are absolute IRIs if the configured ones are. -/
theorem isAbsoluteIri_of_mem (hs : Built s) (h : t ∈ (x.statements s id g withRelations).toList)
    (hpredicates : ∀ type ∈ x.registry.types, ∀ p, type.predicate = some p →
      isAbsoluteIri (expand p) = true) : isAbsoluteIri t.predicate = true := by
  rcases predicate_cases hs h with hfixed | ⟨-, e, type, target, he, hpredicate⟩
  · exact (wellNamed_fixedPredicates _ hfixed).1
  · have hmem := (Registry.mem_of_get? he.registered).1
    rw [hpredicate]
    cases hconfigured : type.predicate with
    | none =>
        exact (predicateIri_of_unconfigured (Registry.isTypeName_of_mem hmem) hconfigured).1
    | some p =>
        rw [predicateIri_of_configured hconfigured]
        exact hpredicates type hmem p hconfigured

/-- What the tags of a document are. -/
theorem tags_of_write (hs : Built s)
    (hpredicates : ∀ type ∈ x.registry.types, ∀ p, type.predicate = some p →
      isAbsoluteIri (expand p) = true) :
    Tags.ofText (Xml.write (x.statements s id g withRelations)) =
      Tags.documentTags (x.statements s id g withRelations) := by
  refine Tags.ofText_write (fun n hn => readable_declarationAttribute hn) fun t ht => ?_
  exact isName_of_qualifies (qualifies_elementName ht) (isAbsoluteIri_of_mem hs ht hpredicates)

/-- The local names of an export are names exactly if those of the configured predicates
of its edges are. -/
theorem forall_isNcName_iff (hs : Built s) :
    (∀ t ∈ (x.statements s id g withRelations).toList,
      isNcName (localName t.predicate) = true) ↔
    (withRelations = true → ∀ e type target p, x.Exports s id e type target →
      type.predicate = some p → isNcName (localName (expand p)) = true) := by
  constructor
  · rintro h rfl e type target p he hconfigured
    have hname := h _ ((mem_statements_iff hs).2 (.inr (.edge he)))
    rw [predicateIri_of_configured hconfigured] at hname
    exact hname
  · intro h t ht
    rcases predicate_cases hs ht with hfixed | ⟨hrelations, e, type, target, he, hpredicate⟩
    · exact (wellNamed_fixedPredicates _ hfixed).2
    · have hmem := (Registry.mem_of_get? he.registered).1
      rw [hpredicate]
      cases hconfigured : type.predicate with
      | none =>
          exact (predicateIri_of_unconfigured (Registry.isTypeName_of_mem hmem) hconfigured).2
      | some p =>
          rw [predicateIri_of_configured hconfigured]
          exact h hrelations e type target p he hconfigured

end Predicates

end Exporter

/-! ## The element names of a document -/

/-- For every state of a store, every registry whose configured predicates are absolute
IRIs, and every glossary that has a record: the document has a root, and for each subject
a description with one element for each statement. The name of every element is a short
name that the root declares, a colon and the local name of its predicate. Apart from the
configured predicates of exported edges, local names are always names. -/
theorem element_names_exact (b : Backend) (s : b.State) (hs : Built s) (x : Exporter)
    (hpredicates : ∀ type ∈ x.registry.types, ∀ p, type.predicate = some p →
      isAbsoluteIri (expand p) = true)
    (id : GlossaryId) (g : Glossary) (hglossary : glossaryRecord s id = some g)
    (withRelations : Bool) :
    ∃ (exported : TripleSet) (text : String),
      (x.triples id withRelations).run s = (.ok exported, s) ∧
      (x.document id .rdfXml withRelations).run s = (.ok text, s) ∧
      Tags.ofText text = Tags.documentTags exported ∧
      (∀ t ∈ exported.toList, Qualifies (declared (extraNamespaces exported))
        (elementName (extraNamespaces exported) t.predicate) t.predicate) ∧
      ((∀ t ∈ exported.toList, isNcName (localName t.predicate) = true) ↔
        (withRelations = true → ∀ e type target p, x.Exports s id e type target →
          type.predicate = some p → isNcName (localName (expand p)) = true)) := by
  refine ⟨x.statements s id g withRelations, Xml.write (x.statements s id g withRelations),
    ?_, ?_, Exporter.tags_of_write hs hpredicates, fun t ht => qualifies_elementName ht,
    Exporter.forall_isNcName_iff hs⟩
  · rw [x.triples_run, hglossary]
  · rw [x.document_run, hglossary]
    rfl

/-- The registry of one type, which is exported under a given predicate. -/
def replacesOnly (predicate : String) : Registry where
  types := [{ name := "replaces", displayName := "Replaces", color := "#000000"
              predicate := some predicate }]
  defaultName := "replaces"
  accepted := by
    simp [firstFlaw?, ownFlaws?, ownFlaw?, inverseFlaw?, findType?, isTypeName, isColor, isHexDigit]

theorem isAbsoluteIri_of_replacesOnly {predicate : String}
    (h : isAbsoluteIri (expand predicate) = true) :
    ∀ type ∈ (replacesOnly predicate).types, ∀ p, type.predicate = some p →
      isAbsoluteIri (expand p) = true := by
  intro type htype p hp
  simp only [replacesOnly, List.mem_singleton] at htype
  subst htype
  obtain rfl := Option.some.inj hp
  exact h

/-- A session in which one style replaces another. -/
def replaceStyle : List Action :=
  let art : Glossary := { id := ⟨"art"⟩, name := "Art" }
  [.edit (.putGlossary art), .edit (.putTerm (.topLevel ⟨"cubism"⟩ art "Cubism")),
    .edit (.putTerm (.topLevel ⟨"realism"⟩ art "Realism")),
    .request (.add ⟨"cubism"⟩ ⟨"realism"⟩ "replaces")]

/-- The local name of a configured predicate is the part behind its last `#`. -/
theorem replaces_wellNamed :
    let registry := replacesOnly "http://example.org/terms#replaces"
    let x : Exporter := .withBase registry "https://open-metadata.org"
    let s : Backend.State .memory :=
      runActions (.ofSettings registry {}) replaceStyle EditableStore.empty
    Built s ∧
      (∀ type ∈ registry.types, ∀ p, type.predicate = some p →
        isAbsoluteIri (expand p) = true) ∧
      glossaryRecord s ⟨"art"⟩ = some { id := ⟨"art"⟩, name := "Art" } ∧
      ∃ (exported : TripleSet) (text : String),
        (x.document ⟨"art"⟩ .rdfXml true).run s = (.ok text, s) ∧
        Tags.ofText text = Tags.documentTags exported ∧
        ∀ t ∈ exported.toList, isNcName (localName t.predicate) = true := by
  intro registry x s
  have hs : Built s := built_of_reached (reached_runActions _ replaceStyle _ .empty)
  have hpredicates : ∀ type ∈ registry.types, ∀ p, type.predicate = some p →
      isAbsoluteIri (expand p) = true := isAbsoluteIri_of_replacesOnly (by decide +kernel)
  have hglossary : glossaryRecord s ⟨"art"⟩ = some { id := ⟨"art"⟩, name := "Art" } := by
    decide +kernel
  obtain ⟨exported, text, -, hdocument, htags, -, hnames⟩ :=
    element_names_exact .memory s hs x hpredicates ⟨"art"⟩ _ hglossary true
  refine ⟨hs, hpredicates, hglossary, exported, text, hdocument, htags, hnames.2 ?_⟩
  intro _ e type target p he hp
  rw [List.mem_singleton.1 (Registry.mem_of_get? he.registered).1] at hp
  obtain rfl := Option.some.inj hp
  decide +kernel

/-- A predicate without `#` and `/` gives an element name that ends with its colon. -/
theorem element_without_localName :
    let registry := replacesOnly "urn:example:replaces"
    let x : Exporter := .withBase registry "https://open-metadata.org"
    let s : Backend.State .memory :=
      runActions (.ofSettings registry {}) replaceStyle EditableStore.empty
    Registry.ofTypes registry.types registry.defaultName = .ok registry ∧
      (∀ type ∈ registry.types, ∀ p, type.predicate = some p →
        isAbsoluteIri (expand p) = true) ∧
      ∃ text, (x.document ⟨"art"⟩ .rdfXml true).run s = (.ok text, s) ∧
        ∃ tag ∈ Tags.ofText text,
          tag.attributes =
            [("rdf:resource", "https://open-metadata.org/glossaryTerm/realism")] ∧
          ∀ short name, isNcName name = true → tag.name ≠ short ++ ":" ++ name := by
  intro registry x s
  let art : Glossary := { id := ⟨"art"⟩, name := "Art" }
  let cubism : Term := .topLevel ⟨"cubism"⟩ art "Cubism"
  let realism : Term := .topLevel ⟨"realism"⟩ art "Realism"
  let e : Edge := { source := ⟨"cubism"⟩, target := ⟨"realism"⟩, type := "replaces" }
  let type : RelationType :=
    { name := "replaces", displayName := "Replaces", color := "#000000"
      predicate := some "urn:example:replaces" }
  have hs : Built s := built_of_reached (reached_runActions _ replaceStyle _ .empty)
  have hpredicates : ∀ type ∈ registry.types, ∀ p, type.predicate = some p →
      isAbsoluteIri (expand p) = true := isAbsoluteIri_of_replacesOnly (by decide +kernel)
  have hglossary : glossaryRecord s ⟨"art"⟩ = some art := by decide +kernel
  have he : x.Exports s ⟨"art"⟩ e type realism :=
    ⟨by decide +kernel, by decide +kernel, ⟨cubism, ⟨by decide +kernel, rfl⟩, rfl⟩,
      by decide +kernel⟩
  have hmem := (Exporter.mem_statements_iff (g := art) hs).2 (.inr (.edge he))
  have htags : Tags.ofText (Xml.write (x.statements s ⟨"art"⟩ art true)) =
      Tags.documentTags (x.statements s ⟨"art"⟩ art true) := Exporter.tags_of_write hs hpredicates
  have hlocal : localName (predicateIri type) = "" := by decide +kernel
  have hiri : escaped (x.termIri ⟨"realism"⟩) =
      "https://open-metadata.org/glossaryTerm/realism" := by decide +kernel
  refine ⟨Registry.ofTypes_types registry, hpredicates, _, ?_, _,
    htags ▸ Tags.propertyTag_mem_documentTags hmem, ?_, ?_⟩
  · rw [x.document_run, hglossary]
    rfl
  · rw [← hiri]
    rfl
  · exact ne_of_localName_empty (qualifies_elementName hmem) hlocal

end Thesaurus
