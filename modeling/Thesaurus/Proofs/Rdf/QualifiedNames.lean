import Thesaurus.Proofs.Rdf.Tags
import Thesaurus.Proofs.Rdf.Vocabulary
import Thesaurus.Proofs.Registry.Acceptance

/-!
# Qualified names

In a document that is well formed with its namespaces, the name of an element is a
declared short name, a colon and a local name, and neither of the two names has a colon
in it. The namespace and the local name together are the IRI that the name stands for.

Every predicate has such a name as far as the short name goes: the vocabulary covers it,
or its namespace is declared for it. The local name is what follows the last `#` or `/`
of the predicate, whatever that is. It may be no name at all.

## Main definitions

* `isNcName`: names without colons.
* `localName`: what follows the last `#` or `/` of an IRI.
* `Qualifies`: an element name and what it stands for.

## Main results

* `splitIri_append`: where IRIs are cut.
* `qualifies_elementName`: every predicate of a set has a declared namespace.
-/

namespace Thesaurus.Rdf.Xml

/-! ## Names without colons -/

/-- The ranges of characters that names without colons begin with. -/
def nameStarts : List (Nat × Nat) := [
  (0x41, 0x5a), (0x5f, 0x5f), (0x61, 0x7a), (0xc0, 0xd6), (0xd8, 0xf6), (0xf8, 0x2ff),
  (0x370, 0x37d), (0x37f, 0x1fff), (0x200c, 0x200d), (0x2070, 0x218f), (0x2c00, 0x2fef),
  (0x3001, 0xd7ff), (0xf900, 0xfdcf), (0xfdf0, 0xfffd), (0x10000, 0xeffff)]

/-- The ranges of characters that names without colons are made of. -/
def nameParts : List (Nat × Nat) :=
  [(0x2d, 0x2e), (0x30, 0x39), (0xb7, 0xb7), (0x300, 0x36f), (0x203f, 0x2040)] ++ nameStarts

/-- Whether a character is in one of some ranges. -/
def isWithin (ranges : List (Nat × Nat)) (c : Char) : Bool :=
  ranges.any fun range => range.1 ≤ c.toNat && c.toNat ≤ range.2

/-- Whether a text is a name without a colon. -/
def isNcName (text : String) : Bool :=
  match text.toList with
  | [] => false
  | first :: rest => isWithin nameStarts first && rest.all (isWithin nameParts)

theorem isWithin_nameStarts_of_isAlpha {c : Char} (h : c.isAlpha = true) :
    isWithin nameStarts c = true := by
  have hcode := isAlpha_iff.1 h
  simp only [isWithin, nameStarts, List.any_cons, Bool.or_eq_true, Bool.and_eq_true,
    decide_eq_true_eq]
  omega

theorem isWithin_nameParts_of_isAlphanum {c : Char} (h : c.isAlphanum = true) :
    isWithin nameParts c = true := by
  have hcode := isAlphanum_iff.1 h
  simp only [isWithin, nameParts, nameStarts, List.cons_append, List.nil_append, List.any_cons,
    Bool.or_eq_true, Bool.and_eq_true, decide_eq_true_eq]
  omega

/-- Names of relation types are names without colons. -/
theorem isNcName_of_isTypeName {name : String} (h : isTypeName name = true) :
    isNcName name = true := by
  obtain ⟨first, rest, htext⟩ := List.exists_cons_of_ne_nil (toList_ne_nil_of_isTypeName h)
  simp only [isTypeName, isNcName, htext, Bool.and_eq_true, List.all_eq_true] at h ⊢
  exact ⟨isWithin_nameStarts_of_isAlpha h.1,
    fun c hc => isWithin_nameParts_of_isAlphanum (h.2 c hc)⟩

/-- A text with a colon at its end does not end with a name without colons. -/
theorem isNcName_eq_false_of_append {front name text : String} (h : front ++ name = text ++ ":") :
    isNcName name = false := by
  unfold isNcName
  rcases List.eq_nil_or_concat name.toList with hnil | ⟨before, last, hlast⟩
  · rw [hnil]
  · have hends : (front.toList ++ before) ++ [last] = text.toList ++ [':'] := by
      have htext := congrArg String.toList h
      rw [String.toList_append, String.toList_append, hlast, List.concat_eq_append,
        ← List.append_assoc] at htext
      exact htext
    obtain ⟨-, hcolon⟩ := List.append_inj' hends rfl
    obtain rfl := List.singleton_inj.1 hcolon
    rw [hlast, List.concat_eq_append]
    cases before with
    | nil => decide
    | cons c rest => simp [isWithin, nameParts, nameStarts]

/-! ## Where IRIs are cut -/

/-- Whether IRIs are cut behind a character. -/
def isCut (c : Char) : Bool := c = '#' || c = '/'

/-- What follows the last `#` or `/` of an IRI. -/
def localName (iri : String) : String := .ofList (splitIri iri.toList).2

/-- The two parts of an IRI are the IRI. -/
theorem splitIri_join (iri : List Char) : (splitIri iri).1 ++ (splitIri iri).2 = iri := by
  unfold splitIri
  extract_lets name
  have hsuffix : name <:+ iri := by
    rw [← List.reverse_prefix, List.reverse_reverse]
    exact List.takeWhile_prefix _
  obtain ⟨front, hiri⟩ := hsuffix
  split
  · have hlength : iri.length - name.length = front.length := by
      rw [← hiri, List.length_append]
      omega
    rw [hlength, ← hiri, List.take_left]
  · exact List.append_nil iri

theorem namespaceOf_append_localName (iri : String) : namespaceOf iri ++ localName iri = iri := by
  apply String.toList_injective
  rw [namespaceOf, localName, String.toList_append, String.toList_ofList, String.toList_ofList,
    splitIri_join]

/-- The local name has no place where it could be cut again. -/
theorem not_isCut_localName (iri : List Char) : ∀ c ∈ (splitIri iri).2, isCut c = false := by
  intro c hc
  unfold splitIri at hc
  extract_lets name at hc
  split at hc
  · have hkept := List.all_takeWhile (p := fun c => c != '#' && c != '/') (l := iri.reverse)
    have hmark := List.all_eq_true.1 hkept c (List.mem_reverse.1 hc)
    simpa [isCut] using hmark
  · exact absurd hc List.not_mem_nil

/-- An IRI is cut behind the last place where that is possible, unless nothing follows. -/
theorem splitIri_append {front name : List Char} {mark : Char} (hmark : isCut mark = true)
    (hne : name ≠ []) (hname : ∀ c ∈ name, isCut c = false) :
    splitIri (front ++ mark :: name) = (front ++ [mark], name) := by
  have hcut : ((front ++ mark :: name).reverse.takeWhile fun c => c != '#' && c != '/') =
      name.reverse := by
    have hkept : ∀ c ∈ name.reverse, (c != '#' && c != '/') = true := by
      intro c hc
      simpa [isCut] using hname c (List.mem_reverse.1 hc)
    have hstop : (mark != '#' && mark != '/') = false := by
      rw [isCut, Bool.or_eq_true, decide_eq_true_eq, decide_eq_true_eq] at hmark
      rcases hmark with rfl | rfl <;> rfl
    have hreverse : (front ++ mark :: name).reverse = name.reverse ++ mark :: front.reverse := by
      simp
    rw [hreverse, List.takeWhile_append_of_pos hkept, List.takeWhile_cons_of_neg (by simp [hstop]),
      List.append_nil]
  have hfront : (front ++ mark :: name).take ((front ++ mark :: name).length - name.length) =
      front ++ [mark] := by
    have hlength : (front ++ mark :: name).length - name.length = (front ++ [mark]).length := by
      simp only [List.length_append, List.length_cons, List.length_nil]
      omega
    rw [hlength, List.append_cons front mark name]
    exact List.take_left
  have hshorter : name.length < (front ++ mark :: name).length := by
    simp only [List.length_append, List.length_cons]
    omega
  unfold splitIri
  simp only [hcut, List.reverse_reverse, hfront]
  rw [if_pos]
  simp only [hshorter, hne, decide_true, Bool.true_and, Bool.not_eq_true',
    List.isEmpty_eq_false_iff, ne_eq, not_false_eq_true]

/-! ## Names of the vocabulary -/

theorem exists_cut_of_namespace :
    ∀ n ∈ namespaces, ∃ front mark, n.2.toList = front ++ [mark] ∧ isCut mark = true := by
  intro n hn
  have hmark : ∀ n ∈ namespaces, (n.2.toList.getLast?.any isCut) = true := by decide
  obtain ⟨mark, hlast, hcut⟩ := (Option.any_eq_true _ _).1 (hmark n hn)
  obtain ⟨front, hfront⟩ := List.getLast?_eq_some_iff.1 hlast
  exact ⟨front, mark, hfront, hcut⟩

/-- The local name in a namespace of the vocabulary. -/
theorem localName_of_namespace {n : String × String} (hn : n ∈ namespaces) {name : String}
    (hplain : isPlainName name.toList = true) : localName (n.2 ++ name) = name := by
  obtain ⟨front, mark, hfront, hmark⟩ := exists_cut_of_namespace n hn
  obtain ⟨hne, hall⟩ := Bool.and_eq_true_iff.1 hplain
  have hnone : ∀ c ∈ name.toList, isCut c = false := by
    intro c hc
    have hc : (c.isAlphanum || c = '_' || c = '-') = true := List.all_eq_true.1 hall c hc
    by_contra hcut
    rw [Bool.not_eq_false, isCut, Bool.or_eq_true, decide_eq_true_eq, decide_eq_true_eq] at hcut
    rcases hcut with rfl | rfl
    · exact absurd hc (by decide)
    · exact absurd hc (by decide)
  have htext : (n.2 ++ name).toList = front ++ mark :: name.toList := by
    rw [String.toList_append, hfront, List.append_assoc, List.singleton_append]
  rw [localName, htext, splitIri_append hmark (by simpa using hne) hnone, String.ofList_toList]

/-! ## Declared namespaces -/

/-- An element name with a declared namespace, and the IRI that it stands for. -/
def Qualifies (declared : List (String × String)) (name iri : String) : Prop :=
  ∃ short full, (short, full) ∈ declared ∧ isNcName short = true ∧
    name = short ++ ":" ++ localName iri ∧ iri = full ++ localName iri

theorem isTypeName_extraName (index : Nat) : isTypeName (extraName index) = true := by
  have hdigits : ∀ c ∈ Nat.toDigits 10 index, c.isAlphanum = true := by
    intro c hc
    rw [Char.isAlphanum, Nat.isDigit_of_mem_toDigits (by decide) (by decide) hc, Bool.or_true]
  have htext : (extraName index).toList = 'n' :: 's' :: Nat.toDigits 10 index := by
    simp [extraName]
  rw [isTypeName, htext]
  simpa using hdigits

/-- Short names of namespaces have letters and digits only. -/
theorem isTypeName_of_mem_declared {extra : List String} {n : String × String}
    (h : n ∈ declared extra) : isTypeName n.1 = true := by
  have hvocabulary : ∀ n ∈ namespaces, isTypeName n.1 = true := by decide
  rcases List.mem_append.1 h with hn | hn
  · exact hvocabulary n hn
  · obtain ⟨index, hindex, rfl⟩ := List.mem_mapIdx.1 hn
    exact isTypeName_extraName index

theorem endsName_of_isAlphanum {c : Char} (h : c.isAlphanum = true) : Tags.endsName c = false :=
  Tags.endsName_eq_false Char.isAlphanum (by decide) h

theorem isName_of_isTypeName {name : String} (h : isTypeName name = true) :
    Tags.IsName name.toList := by
  have hletters := isAlphanum_of_isTypeName h
  obtain ⟨c, rest, htext⟩ := List.exists_cons_of_ne_nil (toList_ne_nil_of_isTypeName h)
  refine ⟨⟨c, rest, htext, ?_⟩, fun d hd => endsName_of_isAlphanum (hletters d hd)⟩
  rintro rfl
  exact absurd (hletters '?' (by simp [htext])) (by decide)

/-- The declarations of a document can be read back. -/
theorem readable_declarationAttribute {extra : List String} {n : String × String}
    (h : n ∈ declared extra) : Tags.Readable (Tags.declarationAttribute n) := by
  have hletters := isAlphanum_of_isTypeName (isTypeName_of_mem_declared h)
  have hfront : Tags.IsName "xmlns:".toList := .of_all (by decide)
  refine Tags.readable_escaped ?_ ?_ n.2
  · rw [String.toList_append]
    exact hfront.append fun c hc => endsName_of_isAlphanum (hletters c hc)
  · rw [String.toList_append, List.mem_append]
    rintro (hmem | hmem)
    · exact absurd hmem (by decide)
    · exact absurd (hletters _ hmem) (by decide)

theorem compact?_none_mem_declared {s : TripleSet} {t : Triple} (ht : t ∈ s.toList)
    (hcompact : compact? t.predicate = none) :
    ∃ index, (extraNamespaces s).idxOf? (namespaceOf t.predicate) = some index ∧
      (extraName index, namespaceOf t.predicate) ∈ declared (extraNamespaces s) := by
  have hmem : namespaceOf t.predicate ∈ extraNamespaces s := by
    refine List.mem_eraseDups.2 (List.mem_filterMap.2 ⟨t.predicate, List.mem_map_of_mem ht, ?_⟩)
    simp [hcompact]
  obtain ⟨index, hindex⟩ := Option.isSome_iff_exists.1 (List.isSome_idxOf?.2 hmem)
  obtain ⟨hlt, hget, -⟩ := List.idxOf?_eq_some_iff.1 hindex
  refine ⟨index, hindex, List.mem_append_right _ (List.mem_mapIdx.2 ⟨index, hlt, ?_⟩)⟩
  rw [hget]

/-- Every predicate of a set has a declared namespace. -/
theorem qualifies_elementName {s : TripleSet} {t : Triple} (ht : t ∈ s.toList) :
    Qualifies (declared (extraNamespaces s)) (elementName (extraNamespaces s) t.predicate)
      t.predicate := by
  unfold elementName
  cases hcompact : compact? t.predicate with
  | some shortened =>
      obtain ⟨n, hn, name, hplain, hiri, rfl⟩ := exists_of_compact? hcompact
      have hlocal : localName t.predicate = .ofList name := by
        rw [hiri]
        exact localName_of_namespace hn (by rwa [String.toList_ofList])
      have hmem : n ∈ declared (extraNamespaces s) := List.mem_append_left _ hn
      refine ⟨n.1, n.2, hmem, isNcName_of_isTypeName (isTypeName_of_mem_declared hmem), ?_, ?_⟩
      · rw [hlocal]
      · rw [hlocal, ← hiri]
  | none =>
      obtain ⟨index, hindex, hmem⟩ := compact?_none_mem_declared ht hcompact
      refine ⟨_, _, hmem, isNcName_of_isTypeName (isTypeName_of_mem_declared hmem), ?_,
        (namespaceOf_append_localName t.predicate).symm⟩
      rw [namespaceOf] at hindex
      simp only [hindex, localName]

end Thesaurus.Rdf.Xml
