import Mathlib.Computability.Language
import Thesaurus.Proofs.Registry.Acceptance

/-!
# Which lists of types are accepted

The check of a list of types goes through the list twice and stops at the first flaw.
What it asks for can be said without any order of steps: names and colours are spelled
as their patterns say, names are distinct, inverses point back, and the default type is
listed. A list is accepted exactly when it is like that. Names being distinct, a name
then leads to the one type that has it.

## Main definitions

* `typeNames`, `colors`: the patterns of names and colours, as languages.
* `WellFormed`: what a list of types has to be like.

## Main results

* `isTypeName_iff`, `isColor_iff`: the checks of texts against their patterns.
* `isColor_iff_utf8ByteSize`: the length of a colour counted in bytes.
* `accepted_iff_wellFormed`: when a list is accepted, and what its registry answers.
-/

namespace Thesaurus

open Computability

/-! ## Patterns -/

/-- Whether a character lies in one of these ranges. -/
def InRanges (ranges : List (Char × Char)) (c : Char) : Prop :=
  ∃ range ∈ ranges, range.1 ≤ c ∧ c ≤ range.2

/-- The texts that are one character out of these ranges. -/
def oneOf (ranges : List (Char × Char)) : Language Char :=
  {text | ∃ c, text = [c] ∧ InRanges ranges c}

/-- `[a-zA-Z][a-zA-Z0-9]*` -/
def typeNames : Language Char :=
  oneOf [('a', 'z'), ('A', 'Z')] * (oneOf [('a', 'z'), ('A', 'Z'), ('0', '9')])∗

/-- `#[0-9a-fA-F]{6}` -/
def colors : Language Char :=
  {['#']} * oneOf [('0', '9'), ('a', 'f'), ('A', 'F')] ^ 6

section Ranges

variable {ranges : List (Char × Char)} {text : List Char}

/-- Words of one character each, put together. -/
theorem flatten_of_oneOf {words : List (List Char)} (h : ∀ word ∈ words, word ∈ oneOf ranges) :
    words.flatten.length = words.length ∧ ∀ c ∈ words.flatten, InRanges ranges c := by
  induction words with
  | nil => exact ⟨rfl, fun c hc => absurd hc List.not_mem_nil⟩
  | cons word rest ih =>
      have hword : word ∈ oneOf ranges := h word List.mem_cons_self
      have hrest := ih fun other hother => h other (List.mem_cons_of_mem word hother)
      obtain ⟨c, rfl, hc⟩ := hword
      constructor
      · simp [hrest.1]
      · intro d hd
        rw [List.flatten_cons, List.singleton_append] at hd
        cases List.mem_cons.1 hd with
        | inl hhead => exact hhead ▸ hc
        | inr htail => exact hrest.2 d htail

/-- A text is its characters, put together. -/
theorem flatten_singletons (text : List Char) : (text.map ([·])).flatten = text := by
  rw [← List.flatMap_def, List.flatMap_singleton']

theorem singletons_mem_oneOf (h : ∀ c ∈ text, InRanges ranges c) :
    ∀ word ∈ text.map ([·]), word ∈ oneOf ranges := by
  intro word hword
  have hchar := List.mem_map.1 hword
  obtain ⟨c, hc, hword⟩ := hchar
  exact ⟨c, hword.symm, h c hc⟩

theorem mem_kstar_oneOf_iff : text ∈ (oneOf ranges)∗ ↔ ∀ c ∈ text, InRanges ranges c := by
  rw [Language.mem_kstar]
  constructor
  · rintro ⟨words, rfl, hwords⟩
    exact (flatten_of_oneOf hwords).2
  · intro h
    exact ⟨text.map ([·]), (flatten_singletons text).symm, singletons_mem_oneOf h⟩

theorem mem_pow_oneOf_iff {n : Nat} :
    text ∈ oneOf ranges ^ n ↔ text.length = n ∧ ∀ c ∈ text, InRanges ranges c := by
  rw [Language.mem_pow]
  constructor
  · rintro ⟨words, rfl, rfl, hwords⟩
    exact flatten_of_oneOf hwords
  · intro h
    have hlength : (text.map ([·])).length = n := by rw [List.length_map, h.1]
    exact ⟨text.map ([·]), (flatten_singletons text).symm, hlength, singletons_mem_oneOf h.2⟩

end Ranges

/-! ## Characters -/

section Characters

variable {c : Char}

theorem not_inRanges_nil : ¬ InRanges [] c := by
  rintro ⟨range, hrange, -⟩
  exact absurd hrange List.not_mem_nil

/-- Ranges by the codes of their ends. -/
theorem inRanges_cons {first last : Char} {ranges : List (Char × Char)} :
    InRanges ((first, last) :: ranges) c ↔
      first.toNat ≤ c.toNat ∧ c.toNat ≤ last.toNat ∨ InRanges ranges c := by
  unfold InRanges
  rw [List.exists_mem_cons_iff]
  exact Iff.rfl

theorem isAlpha_iff_inRanges : c.isAlpha = true ↔ InRanges [('a', 'z'), ('A', 'Z')] c := by
  simp only [isAlpha_iff, inRanges_cons, not_inRanges_nil, or_false, Char.reduceToNat]
  omega

theorem isAlphanum_iff_inRanges :
    c.isAlphanum = true ↔ InRanges [('a', 'z'), ('A', 'Z'), ('0', '9')] c := by
  simp only [isAlphanum_iff, inRanges_cons, not_inRanges_nil, or_false, Char.reduceToNat]
  omega

theorem isHexDigit_iff_inRanges :
    isHexDigit c = true ↔ InRanges [('0', '9'), ('a', 'f'), ('A', 'F')] c := by
  simp [InRanges, isHexDigit, Char.isDigit, Char.le_def, or_assoc]

/-- A hexadecimal digit is one byte long. -/
theorem utf8Size_of_isHexDigit (h : isHexDigit c = true) : c.utf8Size = 1 := by
  have hranges := isHexDigit_iff_inRanges.1 h
  simp only [inRanges_cons, not_inRanges_nil, or_false, Char.reduceToNat] at hranges
  rw [Char.utf8Size_eq_one_iff, UInt32.le_iff_toNat_le]
  show c.toNat ≤ 127
  omega

end Characters

/-! ## Names and colours -/

theorem isTypeName_iff {name : String} : isTypeName name = true ↔ name.toList ∈ typeNames := by
  unfold isTypeName typeNames
  rw [Language.mem_mul]
  cases hname : name.toList with
  | nil =>
      constructor
      · intro h
        cases h
      · rintro ⟨_, ⟨c, rfl, -⟩, rest, -, hjoined⟩
        cases hjoined
  | cons first rest =>
      simp only [Bool.and_eq_true, List.all_eq_true, isAlpha_iff_inRanges,
        isAlphanum_iff_inRanges]
      constructor
      · intro h
        exact ⟨[first], ⟨first, rfl, h.1⟩, rest, mem_kstar_oneOf_iff.2 h.2, rfl⟩
      · rintro ⟨_, ⟨c, rfl, hc⟩, others, hothers, hjoined⟩
        obtain ⟨rfl, rfl⟩ := List.cons.inj hjoined
        exact ⟨hc, mem_kstar_oneOf_iff.1 hothers⟩

/-- A colour is a mark and six digits. -/
theorem isColor_iff_exists {color : String} :
    isColor color = true ↔ ∃ digits, color.toList = '#' :: digits ∧ digits.length = 6 ∧
      ∀ c ∈ digits, isHexDigit c = true := by
  unfold isColor
  split
  · next digits hcolor => simp [hcolor]
  · next hcolor =>
      constructor
      · intro h
        cases h
      · rintro ⟨digits, hdigits, -⟩
        exact absurd hdigits (hcolor digits)

theorem isColor_iff {color : String} : isColor color = true ↔ color.toList ∈ colors := by
  rw [isColor_iff_exists, colors, Language.mem_mul]
  simp only [isHexDigit_iff_inRanges]
  constructor
  · rintro ⟨digits, hcolor, hlength, hdigits⟩
    exact ⟨['#'], rfl, digits, mem_pow_oneOf_iff.2 ⟨hlength, hdigits⟩, hcolor.symm⟩
  · rintro ⟨_, rfl, digits, hdigits, hcolor⟩
    exact ⟨digits, hcolor.symm, mem_pow_oneOf_iff.1 hdigits⟩

/-- Digits are as many bytes as characters. -/
theorem utf8ByteSize_of_digits {digits : List Char} (h : ∀ c ∈ digits, isHexDigit c = true) :
    (String.ofList digits).utf8ByteSize = digits.length := by
  induction digits with
  | nil => rfl
  | cons c rest ih =>
      have hsize : c.utf8Size = 1 := utf8Size_of_isHexDigit (h c List.mem_cons_self)
      have hrest := ih fun d hd => h d (List.mem_cons_of_mem c hd)
      rw [String.ofList_cons, String.utf8ByteSize_append, String.utf8ByteSize_singleton, hsize,
        hrest, List.length_cons, Nat.add_comm]

/-- The length of a colour may as well be counted in bytes: a longer character is no
digit. -/
theorem isColor_iff_utf8ByteSize {color : String} :
    isColor color = true ↔ color.utf8ByteSize = 7 ∧ ∃ digits, color.toList = '#' :: digits ∧
      ∀ c ∈ digits, isHexDigit c = true := by
  have hsize : ∀ digits, color.toList = '#' :: digits → (∀ c ∈ digits, isHexDigit c = true) →
      color.utf8ByteSize = 1 + digits.length := by
    intro digits hcolor hdigits
    rw [← String.ofList_toList (s := color), hcolor, String.ofList_cons,
      String.utf8ByteSize_append, utf8ByteSize_of_digits hdigits]
    rfl
  rw [isColor_iff_exists]
  constructor
  · rintro ⟨digits, hcolor, hlength, hdigits⟩
    have hbytes := hsize digits hcolor hdigits
    exact ⟨by omega, digits, hcolor, hdigits⟩
  · rintro ⟨hseven, digits, hcolor, hdigits⟩
    have hbytes := hsize digits hcolor hdigits
    exact ⟨digits, hcolor, by omega, hdigits⟩

/-! ## Acceptance -/

/-- What a list of types and the name of a default have to be like. -/
structure WellFormed (types : List RelationType) (defaultName : String) : Prop where
  names : ∀ t ∈ types, t.name.toList ∈ typeNames
  colors : ∀ t ∈ types, t.color.toList ∈ colors
  /-- No two places of the list hold types of one name. -/
  distinct : types.Pairwise fun t u => t.name ≠ u.name
  /-- A type with an inverse is not symmetric, and its inverse names it in turn. -/
  inverses : ∀ t ∈ types, ∀ inverse, t.inverse = some inverse →
    t.isSymmetric = false ∧ ∃ u ∈ types, u.name = inverse ∧ u.inverse = some t.name
  default : ∃ t ∈ types, t.name = defaultName

theorem nodup_names_iff {types : List RelationType} :
    (types.map (·.name)).Nodup ↔ types.Pairwise fun t u => t.name ≠ u.name :=
  List.pairwise_map

/-- A list has no flaw exactly when it is as it has to be. -/
theorem firstFlaw?_eq_none_iff_wellFormed {types : List RelationType} {defaultName : String} :
    firstFlaw? types defaultName = none ↔ WellFormed types defaultName := by
  rw [firstFlaw?_eq_none_iff, ownFlaws?_eq_none_iff, isSome_findType?_iff]
  constructor
  · rintro ⟨⟨hown, hnodup⟩, hinverses, hdefault⟩
    refine
      { names := fun t ht => isTypeName_iff.1 (hown t ht).1
        colors := fun t ht => isColor_iff.1 (hown t ht).2.1
        distinct := nodup_names_iff.1 hnodup
        inverses := ?_
        default := hdefault }
    intro t ht inverse hinverse
    obtain ⟨hsymmetric, u, hu, hback⟩ :=
      inverseFlaw?_eq_none_iff.1 (hinverses t ht) inverse hinverse
    have hfound := (findType?_eq_some_iff hnodup).1 hu
    exact ⟨hsymmetric, u, hfound.1, hfound.2, hback⟩
  · intro h
    have hnodup := nodup_names_iff.2 h.distinct
    refine ⟨⟨?_, hnodup⟩, ?_, h.default⟩
    · intro t ht
      exact ⟨isTypeName_iff.2 (h.names t ht), isColor_iff.2 (h.colors t ht), List.not_mem_nil⟩
    · intro t ht
      refine inverseFlaw?_eq_none_iff.2 fun inverse hinverse => ?_
      obtain ⟨hsymmetric, u, hu, hname, hback⟩ := h.inverses t ht inverse hinverse
      exact ⟨hsymmetric, u, (findType?_eq_some_iff hnodup).2 ⟨hu, hname⟩, hback⟩

/-- A list of types is accepted exactly when it is well formed. The registry has the
types in the order of the list, and under any text whatsoever it finds the one type of
that name, if there is one. -/
theorem accepted_iff_wellFormed (types : List RelationType) (defaultName : String) :
    ((∃ r, Registry.ofTypes types defaultName = .ok r) ↔ WellFormed types defaultName) ∧
      ∀ r, Registry.ofTypes types defaultName = .ok r →
        r.types = types ∧ r.defaultName = defaultName ∧
          ∀ name, types.filter (·.name == name) = (r.get? name).toList := by
  constructor
  · rw [← firstFlaw?_eq_none_iff_wellFormed, Registry.exists_ofTypes_iff]
  · intro r hr
    obtain rfl := Registry.types_of_ofTypes hr
    exact ⟨rfl, Registry.defaultName_of_ofTypes hr, filter_name_eq r.nodup_names⟩

/-- The types that every project starts with are accepted, being well formed, and one of
them is called `narrower`. -/
theorem builtins_accepted :
    ∃ r t, Registry.ofTypes RelationType.builtins RelationType.defaultName = .ok r ∧
      WellFormed RelationType.builtins RelationType.defaultName ∧
      r.get? "narrower" = some t ∧ RelationType.builtins.filter (·.name == "narrower") = [t] := by
  have haccepted : Registry.ofTypes RelationType.builtins RelationType.defaultName =
      .ok Registry.builtin := Registry.ofTypes_types Registry.builtin
  obtain ⟨hiff, hregistry⟩ :=
    accepted_iff_wellFormed RelationType.builtins RelationType.defaultName
  have hfound : Registry.builtin.get? "narrower" = some RelationType.builtins[4] := by
    decide +kernel
  have honly := (hregistry _ haccepted).2.2 "narrower"
  rw [hfound] at honly
  exact ⟨_, _, haccepted, hiff.1 ⟨_, haccepted⟩, hfound, honly⟩

end Thesaurus
