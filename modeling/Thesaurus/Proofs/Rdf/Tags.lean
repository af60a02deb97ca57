import Mathlib.Tactic.SplitIfs
import Thesaurus.Proofs.Rdf.TripleSet
import Thesaurus.Rdf.Documents
import Thesaurus.Text.Cut

/-!
# Tags of documents

What an XML parser sees first of a document are its tags: names, and attributes in
quotes. A scanner reads them character by character. A tag begins at an opening bracket
and ends at a closing one, its name ends at a blank, a slash or the closing bracket, and
attributes may stand between the two. Tags that start no element, the declaration at the
top and the closing ones, are skipped.

Attribute values and texts are escaped, so neither can be taken for a tag, and a document
is read as its root, and for each subject a description with one element for each
statement.

## Main definitions

* `Tags.Tag`, `Tags.step`, `Tags.run`: the scanner.
* `Tags.ofText`: the tags of a document.

## Main results

* `Tags.ofText_write`: the tags of the document of a set.
-/

namespace Thesaurus.Rdf.Xml.Tags

/-- A tag that starts an element, with its attributes as they are written. -/
structure Tag where
  name : String
  attributes : List (String × String) := []
deriving DecidableEq, Repr

/-- Where the scanner stands, with what it has read of a tag. -/
inductive Mode
  /-- Between two tags. -/
  | content
  /-- In a tag that starts no element. -/
  | skipped
  | name (read : List Char)
  /-- In a tag, before an attribute or the end. -/
  | gap (tag : Tag)
  | key (tag : Tag) (read : List Char)
  /-- Before the quote that opens a value. -/
  | opening (tag : Tag) (key : String)
  | value (tag : Tag) (key : String) (read : List Char)
deriving DecidableEq, Repr

/-- The blanks in tags. -/
def isSpace (c : Char) : Bool := c = ' ' || c = '\n' || c = '\r' || c = '\t'

/-- Whether a name cannot go on with a character. -/
def endsName (c : Char) : Bool := isSpace c || c = '/' || c = '>' || c = '<'

/-- A name can go on with the characters of a kind that no end is of. -/
theorem endsName_eq_false (kind : Char → Bool)
    (hends : [' ', '\n', '\r', '\t', '/', '>', '<'].all fun c => !kind c) {c : Char}
    (h : kind c = true) : endsName c = false := by
  by_contra hmem
  rw [Bool.not_eq_false] at hmem
  have hnot : ∀ d ∈ [' ', '\n', '\r', '\t', '/', '>', '<'], kind d = false := by
    simpa using hends
  simp only [endsName, isSpace, Bool.or_eq_true, decide_eq_true_eq, or_assoc] at hmem
  rw [hnot c (by simpa using hmem)] at h
  cases h

/-- What a character does between attributes. -/
def stepGap (tag : Tag) (c : Char) : List Tag × Mode :=
  if c = '>' then ([tag], .content)
  else if endsName c then ([], .gap tag)
  else ([], .key tag [c])

/-- Reads a character: the tag that ends with it, and where the scanner stands then. -/
def step : Mode → Char → List Tag × Mode
  | .content, c => if c = '<' then ([], .name []) else ([], .content)
  | .skipped, c => if c = '>' then ([], .content) else ([], .skipped)
  | .name [], c => if endsName c || c = '?' then ([], .skipped) else ([], .name [c])
  | .name (first :: read), c =>
    if endsName c then stepGap { name := .ofList (first :: read) } c
    else ([], .name (first :: read ++ [c]))
  | .gap tag, c => stepGap tag c
  | .key tag read, c =>
    if c = '=' then ([], .opening tag (.ofList read)) else ([], .key tag (read ++ [c]))
  | .opening tag key, _ => ([], .value tag key [])
  | .value tag key read, c =>
    if c = '"' then
      ([], .gap { tag with attributes := tag.attributes ++ [(key, .ofList read)] })
    else ([], .value tag key (read ++ [c]))

/-- Reads a text. -/
def run : Mode → List Char → List Tag × Mode
  | m, [] => ([], m)
  | m, c :: rest =>
    let here := step m c
    let further := run here.2 rest
    (here.1 ++ further.1, further.2)

/-- The tags of a document that start elements. -/
def ofText (document : String) : List Tag := (run .content document.toList).1

/-! ## Reading piece by piece -/

variable {m m' m'' : Mode} {cs front back : List Char} {tags more : List Tag}

theorem run_append (hfront : run m front = (tags, m')) (hback : run m' back = (more, m'')) :
    run m (front ++ back) = (tags ++ more, m'') := by
  induction front generalizing m tags with
  | nil =>
      obtain ⟨rfl, rfl⟩ := Prod.mk.inj hfront
      exact hback
  | cons c rest ih =>
      obtain ⟨rfl, hend⟩ := Prod.mk.inj hfront
      have hrest := ih (Prod.ext rfl hend)
      simp [run, hrest]

/-- A text that is read as these tags, from between two tags to between two. -/
def Reads (cs : List Char) (tags : List Tag) : Prop := run .content cs = (tags, .content)

instance : Decidable (Reads cs tags) :=
  inferInstanceAs (Decidable (run .content cs = (tags, .content)))

namespace Reads

theorem nil : Reads [] [] := rfl

theorem append (hfront : Reads front tags) (hback : Reads back more) :
    Reads (front ++ back) (tags ++ more) := run_append hfront hback

theorem flatMap {α : Type} {text : α → List Char} {found : α → List Tag} (items : List α)
    (h : ∀ a ∈ items, Reads (text a) (found a)) :
    Reads (items.flatMap text) (items.flatMap found) := by
  induction items with
  | nil => exact nil
  | cons a rest ih =>
      rw [List.flatMap_cons, List.flatMap_cons]
      exact (h a (by simp)).append (ih fun b hb => h b (by simp [hb]))

end Reads

/-- Text without an opening bracket has no tags. -/
theorem reads_content (h : '<' ∉ cs) : Reads cs [] := by
  induction cs with
  | nil => exact .nil
  | cons c rest ih =>
      simp only [List.mem_cons, not_or] at h
      have hrest : run .content rest = ([], .content) := ih h.2
      simp [Reads, run, step, Ne.symm h.1, hrest]

theorem run_skipped (h : '>' ∉ cs) : run .skipped cs = ([], .skipped) := by
  induction cs with
  | nil => rfl
  | cons c rest ih =>
      simp only [List.mem_cons, not_or] at h
      simp [run, step, Ne.symm h.1, ih h.2]

theorem run_name (first : Char) (read : List Char) (h : ∀ c ∈ cs, endsName c = false) :
    run (.name (first :: read)) cs = ([], .name (first :: read ++ cs)) := by
  induction cs generalizing read with
  | nil => simp [run]
  | cons c rest ih =>
      have hc : endsName c = false := h c (by simp)
      have hrest := ih (read ++ [c]) fun d hd => h d (by simp [hd])
      simp only [List.cons_append, List.append_assoc] at hrest
      simp [run, step, hc, hrest]

theorem run_key (tag : Tag) (read : List Char) (h : '=' ∉ cs) :
    run (.key tag read) cs = ([], .key tag (read ++ cs)) := by
  induction cs generalizing read with
  | nil => simp [run]
  | cons c rest ih =>
      simp only [List.mem_cons, not_or] at h
      simp [run, step, Ne.symm h.1, ih _ h.2]

theorem run_value (tag : Tag) (key : String) (read : List Char) (h : '"' ∉ cs) :
    run (.value tag key read) cs = ([], .value tag key (read ++ cs)) := by
  induction cs generalizing read with
  | nil => simp [run]
  | cons c rest ih =>
      simp only [List.mem_cons, not_or] at h
      simp [run, step, Ne.symm h.1, ih _ h.2]

/-! ## Names -/

/-- A name that a tag may have. -/
structure IsName (name : List Char) : Prop where
  first : ∃ c rest, name = c :: rest ∧ c ≠ '?'
  goes_on : ∀ c ∈ name, endsName c = false

/-- Names are known by a look at their characters. -/
theorem IsName.of_all {name : List Char}
    (h : (name.head?.any (· != '?') && name.all fun c => !endsName c) = true) : IsName name := by
  rw [Bool.and_eq_true, List.all_eq_true] at h
  obtain ⟨hfirst, hgoes⟩ := h
  refine ⟨?_, fun c hc => by simpa using hgoes c hc⟩
  cases name with
  | nil => cases hfirst
  | cons c rest => exact ⟨c, rest, rfl, by simpa using hfirst⟩

theorem IsName.append (h : IsName front) (hback : ∀ c ∈ back, endsName c = false) :
    IsName (front ++ back) := by
  obtain ⟨⟨c, rest, rfl, hmark⟩, hgoes⟩ := h
  refine ⟨⟨c, rest ++ back, rfl, hmark⟩, fun d hd => ?_⟩
  rcases List.mem_append.1 hd with hfront | hd
  · exact hgoes d hfront
  · exact hback d hd

theorem run_open {name : List Char} (h : IsName name) :
    run .content ('<' :: name) = ([], .name name) := by
  obtain ⟨⟨c, rest, rfl, hmark⟩, hgoes⟩ := h
  have hrest : run (.name [c]) rest = ([], .name (c :: rest)) :=
    run_name c [] fun d hd => hgoes d (by simp [hd])
  have hc : endsName c = false := hgoes c (by simp)
  simp [run, step, hc, hmark, hrest]

/-- What ends a name does what it does between attributes. -/
theorem run_of_endsName {name : List Char} (h : IsName name) {c : Char} (hc : endsName c = true)
    (rest : List Char) :
    run (.name name) (c :: rest) = run (.gap { name := .ofList name }) (c :: rest) := by
  obtain ⟨⟨first, read, rfl, -⟩, -⟩ := h
  simp [run, step, hc]

/-- A closing tag starts no element. -/
theorem reads_close {name : List Char} (h : '>' ∉ name) :
    Reads ('<' :: '/' :: name ++ ['>']) [] := by
  have hopen : run .content ['<', '/'] = ([], .skipped) := rfl
  exact run_append (run_append hopen (run_skipped h)) rfl

theorem IsName.closing_not_mem {name : List Char} (h : IsName name) : '>' ∉ name :=
  fun hmem => absurd (h.goes_on _ hmem) (by decide)

/-! ## Attributes -/

/-- An attribute as it is written after a blank text. -/
def attributeText (blank : String) (a : String × String) : List Char :=
  blank.toList ++ a.1.toList ++ '=' :: '"' :: a.2.toList ++ ['"']

/-- An attribute that can be read back. -/
structure Readable (a : String × String) : Prop where
  key : IsName a.1.toList
  no_equals : '=' ∉ a.1.toList
  no_quote : '"' ∉ a.2.toList

theorem run_gap_blank {tag : Tag} (h : ∀ c ∈ cs, isSpace c = true) :
    run (.gap tag) cs = ([], .gap tag) := by
  induction cs with
  | nil => rfl
  | cons c rest ih =>
      have hc : isSpace c = true := h c (by simp)
      have hends : endsName c = true := by simp [endsName, hc]
      have hne : c ≠ '>' := by rintro rfl; exact absurd hc (by decide)
      simp [run, step, stepGap, hne, hends, ih fun d hd => h d (by simp [hd])]

theorem run_attribute (tag : Tag) {blank : String} {a : String × String}
    (hblank : ∀ c ∈ blank.toList, isSpace c = true) (ha : Readable a) :
    run (.gap tag) (attributeText blank a) =
      ([], .gap { tag with attributes := tag.attributes ++ [a] }) := by
  obtain ⟨⟨⟨first, rest, hkey, -⟩, hgoes⟩, hequals, hquote⟩ := ha
  have hfirst : run (.gap tag) [first] = ([], .key tag [first]) := by
    have hc : endsName first = false := hgoes first (by simp [hkey])
    have hne : first ≠ '>' := by rintro rfl; exact absurd hc (by decide)
    simp [run, step, stepGap, hc, hne]
  have hname : run (.key tag [first]) rest = ([], .key tag a.1.toList) := by
    rw [hkey]
    exact run_key tag [first] fun h => hequals (by simp [hkey, h])
  have hopen : run (.key tag a.1.toList) ['=', '"'] = ([], .value tag a.1 []) := by
    simp [run, step]
  have hread := run_value tag a.1 [] hquote
  have hclose : run (.value tag a.1 a.2.toList) ['"'] =
      ([], .gap { tag with attributes := tag.attributes ++ [a] }) := by
    simp [run, step]
  have hall := run_append (run_gap_blank hblank) (run_append hfirst (run_append hname
    (run_append hopen (run_append hread hclose))))
  simpa [attributeText, hkey] using hall

theorem run_attributes (tag : Tag) {blank : String} (attributes : List (String × String))
    (hblank : ∀ c ∈ blank.toList, isSpace c = true) (h : ∀ a ∈ attributes, Readable a) :
    run (.gap tag) (attributes.flatMap (attributeText blank)) =
      ([], .gap { tag with attributes := tag.attributes ++ attributes }) := by
  induction attributes generalizing tag with
  | nil => simp [run]
  | cons a rest ih =>
      have hfirst := run_attribute tag hblank (h a (by simp))
      have hrest := ih { tag with attributes := tag.attributes ++ [a] }
        fun b hb => h b (by simp [hb])
      simpa using run_append hfirst hrest

/-- A tag with attributes, up to its end. -/
theorem run_start (name blank : String) (attributes : List (String × String))
    (hname : IsName name.toList) (hne : attributes ≠ []) (hsome : blank.toList ≠ [])
    (hblank : ∀ c ∈ blank.toList, isSpace c = true) (h : ∀ a ∈ attributes, Readable a) :
    run .content ('<' :: name.toList ++ attributes.flatMap (attributeText blank)) =
      ([], .gap { name := name, attributes := attributes }) := by
  have hread := run_attributes { name := name } attributes hblank h
  obtain ⟨c, more, htext⟩ : ∃ c more,
      attributes.flatMap (attributeText blank) = c :: more ∧ isSpace c = true := by
    obtain ⟨a, rest, rfl⟩ := List.exists_cons_of_ne_nil hne
    obtain ⟨c, tail, hcons⟩ := List.exists_cons_of_ne_nil hsome
    exact ⟨c, _, by simp [attributeText, hcons]; rfl, hblank c (by simp [hcons])⟩
  rw [htext.1] at hread ⊢
  have hends : endsName c = true := by simp [endsName, htext.2]
  refine run_append (run_open hname) ?_
  rw [run_of_endsName hname hends, String.ofList_toList, hread, List.nil_append]

/-! ## Escaped text -/

theorem not_mem_escapedChar (c : Char) : '<' ∉ escapedChar c ∧ '"' ∉ escapedChar c := by
  unfold escapedChar
  split
  · decide
  · decide
  · decide
  · decide
  · decide
  · next hless _ _ _ hquote =>
      simp only [List.mem_singleton]
      exact ⟨fun h => hless h.symm, fun h => hquote h.symm⟩

theorem not_mem_escaped (text : String) :
    '<' ∉ (escaped text).toList ∧ '"' ∉ (escaped text).toList := by
  unfold escaped
  rw [String.toList_ofList]
  constructor
  · intro h
    obtain ⟨c, -, hc⟩ := List.mem_flatMap.1 h
    exact (not_mem_escapedChar c).1 hc
  · intro h
    obtain ⟨c, -, hc⟩ := List.mem_flatMap.1 h
    exact (not_mem_escapedChar c).2 hc

/-! ## Documents -/

/-- The attribute that declares a namespace. -/
def declarationAttribute (n : String × String) : String × String := ("xmlns:" ++ n.1, escaped n.2)

/-- The tag of a statement's element. -/
def propertyTag (extra : List String) (t : Triple) : Tag where
  name := elementName extra t.predicate
  attributes :=
    match t.object with
    | .iri iri => [("rdf:resource", escaped iri)]
    | .literal _ => []

/-- The tags of the description of a subject. -/
def descriptionTags (extra : List String) (group : String × List Triple) : List Tag :=
  { name := "rdf:Description", attributes := [("rdf:about", escaped group.1)] } ::
    group.2.map (propertyTag extra)

/-- The tags of the document of a set. -/
def documentTags (s : TripleSet) : List Tag :=
  { name := "rdf:RDF", attributes := (declared (extraNamespaces s)).map declarationAttribute } ::
    s.groups.flatMap (descriptionTags (extraNamespaces s))

/-- Every statement has its element. -/
theorem propertyTag_mem_documentTags {s : TripleSet} {t : Triple} (ht : t ∈ s.toList) :
    propertyTag (extraNamespaces s) t ∈ documentTags s := by
  obtain ⟨g, hg, hmem⟩ := TripleSet.mem_groups_iff.2 ht
  refine List.mem_cons_of_mem _ (List.mem_flatMap.2 ⟨g, hg, ?_⟩)
  exact List.mem_cons_of_mem _ (List.mem_map.2 ⟨t, hmem, rfl⟩)

variable {extra : List String}

theorem readable_escaped {key : String} (hkey : IsName key.toList) (hequals : '=' ∉ key.toList)
    (text : String) : Readable (key, escaped text) :=
  ⟨hkey, hequals, (not_mem_escaped text).2⟩

theorem readable_resource (iri : String) : Readable ("rdf:resource", escaped iri) :=
  readable_escaped (.of_all (by decide)) (by decide) iri

theorem readable_about (iri : String) : Readable ("rdf:about", escaped iri) :=
  readable_escaped (.of_all (by decide)) (by decide) iri

/-- A tag with one attribute, up to its end. -/
theorem run_start_one (name : String) {key value : String} (hname : IsName name.toList)
    (h : Readable (key, value)) :
    run .content (("<" ++ name ++ " " ++ key ++ "=\"" ++ value ++ "\"").toList) =
      ([], .gap { name := name, attributes := [(key, value)] }) := by
  have hstart := run_start name " " [(key, value)] hname (by simp)
    (by decide) (List.all_eq_true.1 (by decide)) fun a ha => List.mem_singleton.1 ha ▸ h
  simpa [attributeText] using hstart

theorem reads_property {t : Triple} (hname : IsName (elementName extra t.predicate).toList) :
    Reads (property extra t).toList [propertyTag extra t] := by
  have hindent : Reads "    ".toList [] := reads_content (by decide)
  have hline : Reads ['\n'] [] := reads_content (by decide)
  unfold property propertyTag
  cases t.object with
  | iri iri =>
      have hstart := run_start_one _ hname (readable_resource iri)
      have hend : ∀ tag, run (.gap tag) ['/', '>'] = ([tag], .content) := fun _ => rfl
      have hall := hindent.append (Reads.append (run_append hstart (hend _)) hline)
      simpa using hall
  | literal text =>
      have hstart : run .content ('<' :: (elementName extra t.predicate).toList ++ ['>']) =
          ([{ name := elementName extra t.predicate }], .content) := by
        refine run_append (run_open hname) ?_
        rw [run_of_endsName hname (by decide), String.ofList_toList]
        rfl
      have htext : Reads (escaped text).toList [] := reads_content (not_mem_escaped text).1
      have hall := hindent.append (Reads.append hstart (htext.append
        ((reads_close hname.closing_not_mem).append hline)))
      simpa using hall

theorem reads_description {subject : String} {statements : List Triple}
    (h : ∀ t ∈ statements, IsName (elementName extra t.predicate).toList) :
    Reads (description extra subject statements).toList
      (descriptionTags extra (subject, statements)) := by
  have hindent : Reads "  ".toList [] := reads_content (by decide)
  have hstart := run_start_one "rdf:Description" (.of_all (by decide)) (readable_about subject)
  have hend : ∀ tag, run (.gap tag) ['>', '\n'] = ([tag], .content) := fun _ => rfl
  have hproperties : Reads (statements.flatMap fun t => (property extra t).toList)
      (statements.map (propertyTag extra)) := by
    rw [List.map_eq_flatMap]
    exact Reads.flatMap statements fun t ht => reads_property (h t ht)
  have hclose : Reads "  </rdf:Description>\n".toList [] := by decide
  have hall := hindent.append (Reads.append (run_append hstart (hend _))
    (hproperties.append hclose))
  have hopening : "  <rdf:Description rdf:about=\"".toList =
      "  ".toList ++ ("<" ++ "rdf:Description" ++ " " ++ "rdf:about" ++ "=\"").toList := by simp
  have hclosing : "\">\n".toList = "\"".toList ++ ['>', '\n'] := by simp
  unfold description descriptionTags
  simp only [String.toList_append, Text.toList_concat, List.flatMap_map, hopening, hclosing,
    List.append_assoc, List.nil_append, List.append_nil, List.cons_append] at hall ⊢
  exact hall

theorem toList_declaration (n : String × String) :
    (declaration n.1 n.2).toList = attributeText "\n    " (declarationAttribute n) := by
  simp [declaration, attributeText, declarationAttribute]

/-- The tag of the root, which declares the namespaces. -/
def rootTag (extra : List String) : Tag where
  name := "rdf:RDF"
  attributes := (declared extra).map declarationAttribute

/-- A document begins with its root, whatever it is about. -/
theorem reads_root (hnames : ∀ n ∈ declared extra, Readable (declarationAttribute n)) :
    Reads ("<?xml version=\"1.0\" encoding=\"UTF-8\"?>\n<rdf:RDF"
      ++ "".intercalate ((declared extra).map fun n => declaration n.1 n.2) ++ ">\n").toList
      [rootTag extra] := by
  have hdeclaration : Reads "<?xml version=\"1.0\" encoding=\"UTF-8\"?>\n".toList [] := by decide
  have hroot := run_start "rdf:RDF" "\n    " ((declared extra).map declarationAttribute)
    (.of_all (by decide)) (by simp [declared, namespaces]) (by decide)
    (List.all_eq_true.1 (by decide)) fun a ha => by
      obtain ⟨n, hn, rfl⟩ := List.mem_map.1 ha
      exact hnames n hn
  have hend : ∀ tag, run (.gap tag) ['>', '\n'] = ([tag], .content) := fun _ => rfl
  have hall := hdeclaration.append (run_append hroot (hend _))
  have hopening : "<?xml version=\"1.0\" encoding=\"UTF-8\"?>\n<rdf:RDF".toList =
      "<?xml version=\"1.0\" encoding=\"UTF-8\"?>\n".toList ++ '<' :: "rdf:RDF".toList := by
    decide
  have hclosing : ">\n".toList = ['>', '\n'] := by decide
  simp only [String.toList_append, Text.toList_concat, List.flatMap_map, hopening, hclosing,
    toList_declaration, List.append_assoc, List.nil_append, List.cons_append] at hall ⊢
  exact hall

/-- The tags of a document are its root, and for each subject a description with one
element for each statement. -/
theorem ofText_write {s : TripleSet}
    (hnames : ∀ n ∈ declared (extraNamespaces s), Readable (declarationAttribute n))
    (h : ∀ t ∈ s.toList, IsName (elementName (extraNamespaces s) t.predicate).toList) :
    ofText (write s) = documentTags s := by
  have hgroups : Reads
      (s.groups.flatMap fun g => (description (extraNamespaces s) g.1 g.2).toList)
      (s.groups.flatMap (descriptionTags (extraNamespaces s))) :=
    Reads.flatMap s.groups fun g hg => reads_description fun t ht =>
      h t (TripleSet.mem_groups_iff.1 ⟨g, hg, ht⟩)
  have hclose : Reads "</rdf:RDF>\n".toList [] := by decide
  have hall := (reads_root hnames).append (hgroups.append hclose)
  have hread : Reads (write s).toList (documentTags s) := by
    unfold write documentTags
    simp only [String.toList_append, Text.toList_concat, List.flatMap_map, List.append_assoc,
      List.append_nil] at hall ⊢
    exact hall
  rw [ofText, hread]

end Thesaurus.Rdf.Xml.Tags
