import Thesaurus.Rdf.Vocabulary

/-!
# Short forms of IRIs

A short form is the short name of a namespace, a colon and a plain name. It
stands for the namespace followed by the name, and expanding it gives that back.

The way back works as well. The namespaces are looked through in their order, but
none of them begins another, so an IRI is covered by one at most; and short names
have no colon, so the first colon of a short form is the one that was put there.

## Main definitions

* `IsShortForm`: the texts that are short forms.

## Main results

* `exists_of_compact?`: what a short form is made of.
* `expand_of_compact?`: a short form expands to the IRI that it was made for.
* `compact?_append`: a namespace with a plain name is shortened under that namespace.
* `compact?_eq_some_iff`: shortening is expanding short forms, read backwards.
* `short_forms_come_back`: shortening and expanding undo each other.
-/

namespace Thesaurus.Rdf

theorem after?_eq_some_iff {front text rest : List Char} :
    after? front text = some rest ↔ text = front ++ rest := by
  unfold after?
  split
  · next h =>
      obtain ⟨tail, rfl⟩ := List.isPrefixOf_iff_prefix.1 h
      simp
  · next h =>
      simp only [reduceCtorEq, false_iff]
      rintro rfl
      exact h (List.isPrefixOf_iff_prefix.2 (List.prefix_append _ _))

theorem colon_not_mem_namespaces : ∀ n ∈ namespaces, ':' ∉ n.1.toList := by decide

theorem lookup_namespaces : ∀ n ∈ namespaces, namespaces.lookup n.1 = some n.2 := by decide

theorem exists_of_compact? {iri shortened : String} (h : compact? iri = some shortened) :
    ∃ n ∈ namespaces, ∃ name, isPlainName name = true ∧ iri = n.2 ++ .ofList name ∧
      shortened = n.1 ++ ":" ++ .ofList name := by
  obtain ⟨n, hn, hname⟩ := List.exists_of_findSome?_eq_some h
  obtain ⟨name, hafter, hplain⟩ := Option.bind_eq_some_iff.1 hname
  refine ⟨n, hn, name, ?_⟩
  split at hplain
  · next hp =>
      refine ⟨hp, String.toList_injective ?_, (Option.some.inj hplain).symm⟩
      rw [after?_eq_some_iff.1 hafter, String.toList_append, String.toList_ofList]
  · exact absurd hplain (by simp)

theorem cutFirst_short {n : String × String} (hn : n ∈ namespaces) (name : List Char) :
    Text.cutFirst ':' (n.1 ++ ":" ++ .ofList name : String).toList = some (n.1.toList, name) := by
  have htext : (n.1 ++ ":" ++ .ofList name : String).toList = n.1.toList ++ ':' :: name := by
    simp
  rw [htext]
  exact Text.cutFirst_append (colon_not_mem_namespaces n hn) name

/-- A short form expands to the IRI that it was made for. -/
theorem expand_of_compact? {iri shortened : String} (h : compact? iri = some shortened) :
    expand shortened = iri := by
  obtain ⟨n, hn, name, -, rfl, rfl⟩ := exists_of_compact? h
  simp only [expand, cutFirst_short hn, String.ofList_toList, lookup_namespaces n hn]

/-! ## Back to short forms -/

/-- The texts that are short forms. -/
def IsShortForm (text : String) : Prop :=
  ∃ n ∈ namespaces, ∃ name, isPlainName name = true ∧ text = n.1 ++ ":" ++ .ofList name

theorem isPlainName_iff {name : List Char} : isPlainName name = true ↔
    name ≠ [] ∧ ∀ c ∈ name, c.isAlphanum = true ∨ c = '_' ∨ c = '-' := by
  simp [isPlainName, List.isEmpty_eq_false_iff, or_assoc]

/-- No namespace begins another one. -/
theorem eq_of_isPrefixOf_namespaces : ∀ n ∈ namespaces, ∀ m ∈ namespaces,
    m.2.toList.isPrefixOf n.2.toList = true → m = n := by decide +kernel

/-- An IRI is covered by one namespace at most. -/
theorem eq_of_namespace_append {m n : String × String} {front back : List Char}
    (hm : m ∈ namespaces) (hn : n ∈ namespaces)
    (h : m.2.toList ++ front = n.2.toList ++ back) : m = n ∧ front = back := by
  have hfront : m.2.toList <+: n.2.toList ++ back := ⟨front, h⟩
  have hsame : m = n := by
    rcases List.prefix_or_prefix_of_prefix hfront (List.prefix_append _ back) with hmn | hnm
    · exact eq_of_isPrefixOf_namespaces n hn m hm (List.isPrefixOf_iff_prefix.2 hmn)
    · exact (eq_of_isPrefixOf_namespaces m hm n hn (List.isPrefixOf_iff_prefix.2 hnm)).symm
  subst hsame
  exact ⟨rfl, List.append_cancel_left h⟩

/-- A namespace with a plain name is shortened, under that namespace and no other. -/
theorem compact?_append {n : String × String} (hn : n ∈ namespaces) {name : List Char}
    (hname : isPlainName name = true) :
    compact? (n.2 ++ .ofList name) = some (n.1 ++ ":" ++ .ofList name) := by
  have hiri : (n.2 ++ .ofList name : String).toList = n.2.toList ++ name := by
    rw [String.toList_append, String.toList_ofList]
  cases hcompact : compact? (n.2 ++ .ofList name) with
  | none =>
      have hown : ((after? n.2.toList (n.2 ++ .ofList name : String).toList).bind fun rest =>
          if isPlainName rest then some (n.1 ++ ":" ++ .ofList rest) else none) = none :=
        List.findSome?_eq_none_iff.1 hcompact n hn
      rw [after?_eq_some_iff.2 hiri, Option.bind_some, if_pos hname] at hown
      cases hown
  | some short =>
      obtain ⟨m, hm, rest, -, hcovered, rfl⟩ := exists_of_compact? hcompact
      have hsame : n.2.toList ++ name = m.2.toList ++ rest := by
        rw [← hiri, hcovered, String.toList_append, String.toList_ofList]
      obtain ⟨rfl, rfl⟩ := eq_of_namespace_append hn hm hsame
      rfl

theorem compact?_expand {short : String} (h : IsShortForm short) :
    compact? (expand short) = some short := by
  obtain ⟨n, hn, name, hname, rfl⟩ := h
  have hexpand := expand_of_compact? (compact?_append hn hname)
  rw [hexpand, compact?_append hn hname]

/-- An IRI is shortened to the short form that expands to it, and to nothing else. -/
theorem compact?_eq_some_iff {iri short : String} :
    compact? iri = some short ↔ IsShortForm short ∧ expand short = iri := by
  constructor
  · intro h
    obtain ⟨n, hn, name, hname, -, hshort⟩ := exists_of_compact? h
    exact ⟨⟨n, hn, name, hname, hshort⟩, expand_of_compact? h⟩
  · rintro ⟨hshort, rfl⟩
    exact compact?_expand hshort

/-- Shortening and expanding undo each other. What an IRI is shortened to expands to the
IRI. The short name of a namespace, a colon and a name of letters, digits, `_` and `-`
expand to an IRI that is shortened to them again. So no two IRIs have one short form. -/
theorem short_forms_come_back :
    (∀ iri short, compact? iri = some short → expand short = iri) ∧
      (∀ n ∈ namespaces, ∀ name : String, name ≠ "" →
        (∀ c ∈ name.toList, c.isAlphanum = true ∨ c = '_' ∨ c = '-') →
          let short := n.1 ++ ":" ++ name
          expand short = n.2 ++ name ∧ compact? (expand short) = some short) ∧
        ∀ iri iri' short, compact? iri = some short → compact? iri' = some short →
          iri = iri' := by
  refine ⟨fun iri short => expand_of_compact?, ?_, fun iri iri' short h h' => ?_⟩
  · intro n hn name hne hplain short
    have hname : isPlainName name.toList = true :=
      isPlainName_iff.2 ⟨fun hnil => hne (String.toList_eq_nil_iff.1 hnil), hplain⟩
    have hcompact := compact?_append hn hname
    rw [String.ofList_toList] at hcompact
    have hexpand : expand short = n.2 ++ name := expand_of_compact? hcompact
    exact ⟨hexpand, hexpand ▸ hcompact⟩
  · rw [← expand_of_compact? h, expand_of_compact? h']

/-- The name `Concept-2` of SKOS, and one that looks like a namespace. -/
theorem concept_comes_back :
    compact? (skos "Concept-2") = some "skos:Concept-2" ∧
      expand "skos:Concept-2" = skos "Concept-2" ∧
        compact? (expand "om:rdf-schema") = some "om:rdf-schema" ∧
          ∀ iri, compact? iri = some "skos:Concept-2" → iri = skos "Concept-2" := by
  obtain ⟨hexpand, hback, hinjective⟩ := short_forms_come_back
  have hname : isPlainName "rdf-schema".toList = true := by decide
  have hschema :=
    hback ("om", ontologyNamespace) (by decide) "rdf-schema" (by decide)
      (isPlainName_iff.1 hname).2
  have hshort : compact? (skos "Concept-2") = some "skos:Concept-2" := by decide +kernel
  exact ⟨hshort, hexpand _ _ hshort, hschema.2, fun iri h => hinjective _ _ _ h hshort⟩

end Thesaurus.Rdf
