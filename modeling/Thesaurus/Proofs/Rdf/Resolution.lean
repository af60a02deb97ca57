import Thesaurus.Proofs.Rdf.QualifiedNames

/-!
# What element names stand for

A reader of a document knows a predicate by the name of its element alone. The root says
which namespace the short name before the colon stands for, and the rest of the name goes
behind that. This works for all predicates, whatever texts they are: the short names of
the vocabulary and those that a document makes up are all different, so the root declares
each of them once, and every predicate finds its own namespace among the declared ones.

## Main definitions

* `unescaped`: what an escaped text says.
* `Resolves`: an element name, and what it stands for under a root.
* `Opens`: an element and the name that it begins with.

## Main results

* `unescaped_escaped`: escaped texts are read back.
* `nodup_declared`: no short name is declared twice.
* `resolves_elementName`: the declarations of the root lead back to the predicate.
* `element_names_resolve`: the elements of a document and their predicates.
-/

namespace Thesaurus.Rdf.Xml

/-! ## Escaped texts -/

/-- What escaped characters say. -/
def unescapedChars : List Char → List Char
  | '&' :: 'l' :: 't' :: ';' :: rest => '<' :: unescapedChars rest
  | '&' :: 'g' :: 't' :: ';' :: rest => '>' :: unescapedChars rest
  | '&' :: 'a' :: 'm' :: 'p' :: ';' :: rest => '&' :: unescapedChars rest
  | '&' :: 'a' :: 'p' :: 'o' :: 's' :: ';' :: rest => '\'' :: unescapedChars rest
  | '&' :: 'q' :: 'u' :: 'o' :: 't' :: ';' :: rest => '"' :: unescapedChars rest
  | c :: rest => c :: unescapedChars rest
  | [] => []

/-- What an escaped text says. -/
def unescaped (text : String) : String := .ofList (unescapedChars text.toList)

theorem unescapedChars_cons {c : Char} (h : c ≠ '&') (rest : List Char) :
    unescapedChars (c :: rest) = c :: unescapedChars rest := by
  rw [unescapedChars]
  all_goals
    intros
    exact absurd ‹_› h

theorem unescapedChars_escapedChar (c : Char) (rest : List Char) :
    unescapedChars (escapedChar c ++ rest) = c :: unescapedChars rest := by
  unfold escapedChar
  split
  · simp [unescapedChars]
  · simp [unescapedChars]
  · simp [unescapedChars]
  · simp [unescapedChars]
  · simp [unescapedChars]
  · next hamp _ _ => exact unescapedChars_cons hamp rest

/-- Escaped texts are read back. -/
theorem unescaped_escaped (text : String) : unescaped (escaped text) = text := by
  have hchars : ∀ cs : List Char, unescapedChars (cs.flatMap escapedChar) = cs := by
    intro cs
    induction cs with
    | nil => rfl
    | cons c rest ih => rw [List.flatMap_cons, unescapedChars_escapedChar, ih]
  rw [unescaped, escaped, String.toList_ofList, hchars, String.ofList_toList]

/-! ## Short names -/

theorem extraName_injective : Function.Injective extraName := by
  intro index other h
  have hdigits : Nat.toDigits 10 index = Nat.toDigits 10 other := by
    have htext := congrArg String.toList h
    simpa [extraName] using htext
  calc
    index = Nat.ofDigitChars 10 (Nat.toDigits 10 index) 0 := Nat.ofDigitChars_ten_toDigits.symm
    _ = Nat.ofDigitChars 10 (Nat.toDigits 10 other) 0 := by rw [hdigits]
    _ = other := Nat.ofDigitChars_ten_toDigits

/-- No short name of the vocabulary begins like those that documents make up. -/
theorem extraName_ne_of_mem_namespaces (index : Nat) :
    ∀ n ∈ namespaces, extraName index ≠ n.1 := by
  have hvocabulary : ∀ n ∈ namespaces, n.1.toList.take 2 ≠ "ns".toList := by decide
  intro n hn h
  refine hvocabulary n hn ?_
  rw [← h]
  simp [extraName]

/-- No short name is declared twice. -/
theorem nodup_declared (extra : List String) : ((declared extra).map (·.1)).Nodup := by
  have hextra : (extra.mapIdx fun index full => (extraName index, full)).map (·.1) =
      (List.range extra.length).map extraName :=
    List.ext_getElem (by simp) (by simp)
  unfold declared
  rw [List.map_append, hextra, List.nodup_append]
  refine ⟨by decide, List.nodup_range.map extraName_injective, ?_⟩
  intro short hshort other hother heq
  obtain ⟨n, hn, rfl⟩ := List.mem_map.1 hshort
  obtain ⟨index, -, rfl⟩ := List.mem_map.1 hother
  exact extraName_ne_of_mem_namespaces index n hn heq.symm

/-! ## Names under a root -/

/-- The root declares the short name in front of the first colon of a name, and does so
once; the declared namespace with the rest of the name behind it is the IRI. -/
def Resolves (root : Tags.Tag) (name iri : String) : Prop :=
  ∃ short rest value, Text.cutFirst ':' name.toList = some (short, rest) ∧
    (root.attributes.filter fun a => a.1 == "xmlns:" ++ .ofList short) =
      [("xmlns:" ++ .ofList short, value)] ∧
    unescaped value ++ .ofList rest = iri

/-- A name stands for one IRI. -/
theorem Resolves.eq {root : Tags.Tag} {name iri iri' : String} (h : Resolves root name iri)
    (h' : Resolves root name iri') : iri = iri' := by
  obtain ⟨short, rest, value, hcut, hvalue, rfl⟩ := h
  obtain ⟨short', rest', value', hcut', hvalue', rfl⟩ := h'
  rw [hcut, Option.some.injEq, Prod.mk.injEq] at hcut'
  obtain ⟨rfl, rfl⟩ := hcut'
  rw [hvalue, List.cons.injEq, Prod.mk.injEq] at hvalue'
  rw [hvalue'.1.2]

/-- The entry of a key, where no key occurs twice. -/
theorem filter_eq_singleton {entries : List (String × String)} (h : (entries.map (·.1)).Nodup)
    {entry : String × String} (hentry : entry ∈ entries) :
    (entries.filter fun e => e.1 == entry.1) = [entry] := by
  induction entries with
  | nil => exact absurd hentry List.not_mem_nil
  | cons first rest ih =>
      obtain ⟨hfirst, hrest⟩ := List.nodup_cons.1 h
      rcases List.mem_cons.1 hentry with rfl | hmem
      · have hnone : (rest.filter fun e => e.1 == entry.1) = [] := by
          refine List.filter_eq_nil_iff.2 fun e he hkey => hfirst ?_
          exact List.mem_map.2 ⟨e, he, eq_of_beq hkey⟩
        rw [List.filter_cons_of_pos (by simp), hnone]
      · have hne : first.1 ≠ entry.1 :=
          fun heq => hfirst (List.mem_map.2 ⟨entry, hmem, heq.symm⟩)
        rw [List.filter_cons_of_neg (by simpa using hne), ih hrest hmem]

theorem nodup_rootAttributes (extra : List String) :
    ((Tags.rootTag extra).attributes.map (·.1)).Nodup := by
  have hkeys : (Tags.rootTag extra).attributes.map (·.1) =
      ((declared extra).map (·.1)).map ("xmlns:" ++ ·) := by
    simp [Tags.rootTag, Tags.declarationAttribute]
  rw [hkeys]
  refine (nodup_declared extra).map fun short other h => String.toList_injective ?_
  have htext := congrArg String.toList h
  simpa using htext

/-- The declarations of the root lead back to the predicate. -/
theorem resolves_elementName {s : TripleSet} {t : Triple} (ht : t ∈ s.toList) :
    Resolves (Tags.rootTag (extraNamespaces s)) (elementName (extraNamespaces s) t.predicate)
      t.predicate := by
  obtain ⟨short, full, hmem, -, hname, hiri⟩ := qualifies_elementName ht
  have hcolon : ':' ∉ short.toList := by
    intro hc
    have hletters := isAlphanum_of_isTypeName (isTypeName_of_mem_declared hmem)
    exact absurd (hletters ':' hc) (by decide)
  refine ⟨short.toList, (localName t.predicate).toList, escaped full, ?_, ?_, ?_⟩
  · have htext : (elementName (extraNamespaces s) t.predicate).toList =
        short.toList ++ ':' :: (localName t.predicate).toList := by
      rw [hname]
      simp
    rw [htext]
    exact Text.cutFirst_append hcolon _
  · rw [String.ofList_toList]
    exact filter_eq_singleton (nodup_rootAttributes _)
      (List.mem_map.2 ⟨(short, full), hmem, rfl⟩)
  · rw [unescaped_escaped, String.ofList_toList, ← hiri]

/-! ## Elements of a document -/

/-- A name that an element begins with. -/
def Opens (name element : String) : Prop :=
  ∃ rest, element = "    <" ++ name ++ rest ∧
    (rest.toList.head? = some ' ' ∨ rest.toList.head? = some '>')

theorem opens_property (extra : List String) (t : Triple) :
    Opens (elementName extra t.predicate) (property extra t) := by
  unfold property
  cases t.object with
  | iri iri =>
      refine ⟨" rdf:resource=\"" ++ escaped iri ++ "\"/>\n", ?_, .inl (by simp)⟩
      simp only [String.append_assoc]
  | literal text =>
      refine ⟨">" ++ escaped text ++ "</" ++ elementName extra t.predicate ++ ">\n", ?_,
        .inr (by simp)⟩
      simp only [String.append_assoc]

/-- A text among others that are written without anything between. -/
theorem exists_around {texts : List String} {text : String} (h : text ∈ texts) :
    ∃ front back, "".intercalate texts = front ++ text ++ back := by
  obtain ⟨before, after, rfl⟩ := List.append_of_mem h
  refine ⟨"".intercalate before, "".intercalate after, String.toList_injective ?_⟩
  simp only [String.toList_append, Text.toList_concat, List.flatMap_append, List.flatMap_cons,
    List.append_assoc]

/-- Every statement has its element in the document. -/
theorem exists_around_property {s : TripleSet} {t : Triple} (ht : t ∈ s.toList) :
    ∃ front back, write s = front ++ property (extraNamespaces s) t ++ back := by
  obtain ⟨g, hg, hmem⟩ := TripleSet.mem_groups_iff.2 ht
  obtain ⟨front, back, hgroups⟩ := exists_around
    (List.mem_map_of_mem (f := fun g => description (extraNamespaces s) g.1 g.2) hg)
  obtain ⟨front', back', hstatements⟩ := exists_around
    (List.mem_map_of_mem (f := property (extraNamespaces s)) hmem)
  unfold write
  simp only [hgroups]
  unfold description
  rw [hstatements]
  have hwrap (start opening closing ending element : String) : ∃ before after,
      start ++ (front ++ (opening ++ (front' ++ element ++ back') ++ closing) ++ back) ++ ending =
        before ++ element ++ after :=
    ⟨start ++ front ++ opening ++ front', back' ++ closing ++ back ++ ending, by
      simp only [String.append_assoc]⟩
  exact hwrap _ _ _ _ _

/-- A document begins with its root, whatever the names of its elements are. -/
theorem exists_ofText_write (s : TripleSet) :
    ∃ others, Tags.ofText (write s) = Tags.rootTag (extraNamespaces s) :: others := by
  have hreadable : ∀ n ∈ declared (extraNamespaces s),
      Tags.Readable (Tags.declarationAttribute n) := fun _ hn => readable_declarationAttribute hn
  have hdocument (front groups back : String) : Tags.Reads front.toList
      [Tags.rootTag (extraNamespaces s)] → ∃ others,
        Tags.ofText (front ++ groups ++ back) = Tags.rootTag (extraNamespaces s) :: others := by
    intro hfront
    have hread : Tags.run .content (front.toList ++ (groups.toList ++ back.toList)) = _ :=
      Tags.run_append hfront rfl
    refine ⟨(Tags.run .content (groups.toList ++ back.toList)).1, ?_⟩
    rw [Tags.ofText, String.toList_append, String.toList_append, List.append_assoc, hread]
    rfl
  exact hdocument _ _ _ (Tags.reads_root hreadable)

/-- The document of any set begins with its root, which declares no short name twice. Every
statement has its element in the document, and the name of the element leads by way of the
declarations of the root to the predicate of the statement. So no two predicates of a set
share an element name. Where these names are names of tags, the document has no elements
but the descriptions of its subjects, and in them those of the statements, once each. -/
theorem element_names_resolve (s : TripleSet) :
    ∃ root others, Tags.ofText (write s) = root :: others ∧ root.name = "rdf:RDF" ∧
      (root.attributes.map (·.1)).Nodup ∧
      (∀ t ∈ s.toList,
        (∃ front back, write s = front ++ property (extraNamespaces s) t ++ back) ∧
        Opens (elementName (extraNamespaces s) t.predicate) (property (extraNamespaces s) t) ∧
        Resolves root (elementName (extraNamespaces s) t.predicate) t.predicate) ∧
      (∀ t ∈ s.toList, ∀ u ∈ s.toList, t.predicate ≠ u.predicate →
        elementName (extraNamespaces s) t.predicate ≠
          elementName (extraNamespaces s) u.predicate) ∧
      ((∀ t ∈ s.toList, Tags.IsName (elementName (extraNamespaces s) t.predicate).toList) →
        others = s.groups.flatMap (Tags.descriptionTags (extraNamespaces s)) ∧
          (s.groups.flatMap (·.2)).Perm s.toList) := by
  obtain ⟨others, hread⟩ := exists_ofText_write s
  refine ⟨_, others, hread, rfl, nodup_rootAttributes _, ?_, ?_, fun hnames => ⟨?_, ?_⟩⟩
  · intro t ht
    exact ⟨exists_around_property ht, opens_property _ t, resolves_elementName ht⟩
  · intro t ht u hu hne hname
    refine hne ((resolves_elementName ht).eq ?_)
    rw [hname]
    exact resolves_elementName hu
  · have hall := Tags.ofText_write (fun n hn => readable_declarationAttribute hn) hnames
    exact (List.cons.inj (hread.symm.trans hall)).2
  · exact s.grouped_grouped.perm

/-- Predicates with one local name in three namespaces, the first of which is the whole of
its predicate and the last of which has to be escaped. -/
theorem element_names_of_replacing :
    let about (predicate : String) : Triple := ⟨"urn:example:a", predicate, .literal "B"⟩
    let s : TripleSet := .ofList [about (skos "prefLabel"), about "urn:example:replaces",
      about "http://example.org/terms#replaces", about "http://example.org/?a=1&b=2#replaces"]
    ∃ root others, Tags.ofText (write s) = root :: others ∧
      (root.attributes.map (·.1)).Nodup ∧
      others.map (·.name) =
        ["rdf:Description", "skos:prefLabel", "ns0:", "ns1:replaces", "ns2:replaces"] ∧
      Resolves root "skos:prefLabel" "http://www.w3.org/2004/02/skos/core#prefLabel" ∧
      Resolves root "ns0:" "urn:example:replaces" ∧
      Resolves root "ns1:replaces" "http://example.org/terms#replaces" ∧
      Resolves root "ns2:replaces" "http://example.org/?a=1&b=2#replaces" := by
  intro about s
  obtain ⟨root, others, hread, -, hnodup, hall, -, hothers⟩ := element_names_resolve s
  have hnames : s.toList.map (fun t => (elementName (extraNamespaces s) t.predicate, t.predicate)) =
      [("skos:prefLabel", "http://www.w3.org/2004/02/skos/core#prefLabel"),
        ("ns0:", "urn:example:replaces"), ("ns1:replaces", "http://example.org/terms#replaces"),
        ("ns2:replaces", "http://example.org/?a=1&b=2#replaces")] := by decide +kernel
  have hresolves : ∀ name predicate, (name, predicate) ∈ s.toList.map
      (fun t => (elementName (extraNamespaces s) t.predicate, t.predicate)) →
      Resolves root name predicate := by
    intro name predicate hentry
    obtain ⟨t, ht, heq⟩ := List.mem_map.1 hentry
    obtain ⟨rfl, rfl⟩ := Prod.mk.inj heq
    exact (hall t ht).2.2
  rw [hnames] at hresolves
  have hletters : ∀ t ∈ s.toList, ((elementName (extraNamespaces s) t.predicate).toList.head?.any
      (· != '?') && (elementName (extraNamespaces s) t.predicate).toList.all
        fun c => !Tags.endsName c) = true := by decide +kernel
  have htags := (hothers fun t ht => .of_all (hletters t ht)).1
  have helements : others.map (·.name) =
      ["rdf:Description", "skos:prefLabel", "ns0:", "ns1:replaces", "ns2:replaces"] := by
    rw [htags]
    decide +kernel
  exact ⟨root, others, hread, hnodup, helements, hresolves _ _ (by simp), hresolves _ _ (by simp),
    hresolves _ _ (by simp), hresolves _ _ (by simp)⟩

end Thesaurus.Rdf.Xml
