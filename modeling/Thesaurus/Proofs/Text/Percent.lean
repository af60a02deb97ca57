import Thesaurus.Proofs.Text.Utf8
import Thesaurus.Rdf.Vocabulary

/-!
# Percent encoding, read back

The encoded form of a text tells the text: a percent sign and the two digits behind it
stand for one byte, and any other character for itself. It consists of characters that may
stand in any place of an IRI.

## Main definitions

* `isUnreservedChar`: the characters that are not encoded.
* `percentDecoded`: the bytes that an encoded form stands for.

## Main results

* `percentEncoded_injective`: no two texts have one encoded form.
* `mem_percentEncoded`: the characters of encoded forms.
-/

namespace Thesaurus.Text

/-- An ASCII letter or digit, or one of `-`, `_`, `.`, `~`. -/
def isUnreservedChar (c : Char) : Bool :=
  c.isAlphanum || c = '-' || c = '_' || c = '.' || c = '~'

/-- The value of a capital hexadecimal digit. -/
def capitalHexValue (c : Char) : Nat := if c.toNat < 65 then c.toNat - 48 else c.toNat - 55

/-- The bytes that an encoded form stands for. -/
def percentDecoded : List Char → List UInt8
  | '%' :: high :: low :: rest =>
    UInt8.ofNat (16 * capitalHexValue high + capitalHexValue low) :: percentDecoded rest
  | c :: rest => UInt8.ofNat c.toNat :: percentDecoded rest
  | [] => []

theorem capitalHexValue_capitalHexDigit :
    ∀ n < 16, capitalHexValue (capitalHexDigit n) = n := by decide

theorem isUnreservedChar_capitalHexDigit :
    ∀ n < 16, isUnreservedChar (capitalHexDigit n) = true := by decide

/-- The byte of a character that is not encoded tells the character. -/
theorem percentDecoded_of_isUnreserved {b : UInt8} (h : isUnreserved b = true)
    (rest : List Char) :
    percentDecoded (Char.ofNat b.toNat :: rest) = b :: percentDecoded rest := by
  have hne : Char.ofNat b.toNat ≠ '%' := by
    intro heq
    rw [isUnreserved, heq] at h
    exact absurd h (by decide)
  have hcode : (Char.ofNat b.toNat).toNat = b.toNat := by
    have hvalid : b.toNat.isValidChar := .inl (Nat.lt_trans b.toNat_lt (by decide))
    rw [Char.ofNat, dif_pos hvalid]
    rfl
  rw [percentDecoded, hcode, UInt8.ofNat_toNat]
  all_goals
    intros
    exact absurd ‹_› hne

theorem percentDecoded_percentByte (b : UInt8) (rest : List Char) :
    percentDecoded (percentByte b ++ rest) = b :: percentDecoded rest := by
  unfold percentByte
  by_cases hb : isUnreserved b = true
  · rw [if_pos hb, List.singleton_append, percentDecoded_of_isUnreserved hb]
  · have hlt := b.toNat_lt
    have hhigh := capitalHexValue_capitalHexDigit (b.toNat / 16) (by omega)
    have hlow := capitalHexValue_capitalHexDigit (b.toNat % 16) (by omega)
    rw [if_neg hb]
    simp only [List.cons_append, List.nil_append, percentDecoded, hhigh, hlow]
    rw [Nat.div_add_mod, UInt8.ofNat_toNat]

/-- The encoded form of a text stands for its bytes. -/
theorem percentDecoded_percentEncoded (text : String) :
    percentDecoded (percentEncoded text).toList = utf8 text.toList := by
  have hbytes : ∀ bytes : List UInt8, percentDecoded (bytes.flatMap percentByte) = bytes := by
    intro bytes
    induction bytes with
    | nil => rfl
    | cons b rest ih => rw [List.flatMap_cons, percentDecoded_percentByte, ih]
  rw [percentEncoded, String.toList_ofList]
  exact hbytes (utf8 text.toList)

/-- No two texts have one encoded form. -/
theorem percentEncoded_injective : Function.Injective percentEncoded := by
  intro text other h
  apply String.toList_injective
  apply utf8_injective
  rw [← percentDecoded_percentEncoded, h, percentDecoded_percentEncoded]

/-- Encoded forms have unreserved characters and percent signs only. -/
theorem mem_percentEncoded {text : String} {c : Char} (h : c ∈ (percentEncoded text).toList) :
    isUnreservedChar c = true ∨ c = '%' := by
  rw [percentEncoded, String.toList_ofList, List.mem_flatMap] at h
  obtain ⟨b, -, hc⟩ := h
  unfold percentByte at hc
  by_cases hb : isUnreserved b = true
  · rw [if_pos hb, List.mem_singleton] at hc
    rw [hc]
    exact .inl hb
  · have hlt := b.toNat_lt
    rw [if_neg hb] at hc
    simp only [List.mem_cons, List.not_mem_nil, or_false] at hc
    rcases hc with rfl | rfl | rfl
    · exact .inr rfl
    · exact .inl (isUnreservedChar_capitalHexDigit _ (by omega))
    · exact .inl (isUnreservedChar_capitalHexDigit _ (by omega))

end Thesaurus.Text
