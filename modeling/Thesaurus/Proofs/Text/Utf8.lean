import Mathlib.Data.List.Basic
import Mathlib.Tactic.SplitIfs
import Thesaurus.Text.Cut

/-!
# Bytes of texts

Identities are encoded byte by byte, and keys are stored and compared as bytes, while the
definitions speak of characters. Nothing is lost that way: texts with the same bytes are
the same, a text begins with another exactly if its bytes begin with the other's, and the
order of bytes is the order of characters. An ASCII character is found among the bytes of
a text only where it stands in the text, so a text may be cut there in either form.

## Main definitions

* `utf8`: the bytes of characters.
* `textOfBytes?`: the text of bytes.
* `cutFirstByte`: bytes, cut at the first one of a kind.

## Main results

* `utf8_injective`, `utf8_prefix_iff`, `utf8_lt_iff`: texts are told apart, begun and ordered
  by their bytes as by their characters.
* `mem_utf8_iff`: where the byte of an ASCII character is found.
* `cutFirstByte_utf8`: cutting the bytes is cutting the text.
-/

namespace Thesaurus.Text

/-- The bytes of characters. -/
def utf8 (cs : List Char) : List UInt8 := cs.flatMap String.utf8EncodeChar

variable {cs ds : List Char}

@[simp] theorem utf8_nil : utf8 [] = [] := rfl

theorem utf8_cons (c : Char) (cs : List Char) :
    utf8 (c :: cs) = String.utf8EncodeChar c ++ utf8 cs := List.flatMap_cons

@[simp] theorem utf8_append (cs ds : List Char) : utf8 (cs ++ ds) = utf8 cs ++ utf8 ds :=
  List.flatMap_append

/-- These are the bytes that a string consists of. -/
theorem toByteArray_eq_utf8 (text : String) :
    text.toByteArray = (utf8 text.toList).toByteArray := by
  conv_lhs => rw [← String.ofList_toList (s := text)]
  rw [String.toByteArray_ofList]
  rfl

/-- The text of bytes, if they are those of one. -/
def textOfBytes? (bytes : List UInt8) : Option String := String.fromUTF8? bytes.toByteArray

theorem textOfBytes?_utf8 (cs : List Char) : textOfBytes? (utf8 cs) = some (.ofList cs) := by
  have hvalid : (utf8 cs).toByteArray.IsValidUTF8 := ByteArray.isValidUTF8_utf8Encode
  rw [textOfBytes?, String.fromUTF8?, dif_pos hvalid]
  rfl

/-! ## The order of bytes -/

theorem toNat_ofNat_of_lt {n : Nat} (h : n < 256) : (UInt8.ofNat n).toNat = n := by
  rw [UInt8.toNat_ofNat']
  exact Nat.mod_eq_of_lt h

/-- Numbers are ordered by what is in front of their last digit, then by that digit. -/
theorem div_lt_or_mod_lt {m n : Nat} (h : m < n) :
    m / 64 < n / 64 ∨ m / 64 = n / 64 ∧ m % 64 < n % 64 := by
  omega

/-- The bytes of a character come before those of any later character. Of two characters
with bytes of different numbers the first byte decides; of others the bytes are the digits
of their codes. -/
theorem utf8EncodeChar_append_lt {c d : Char} (h : c < d) (front back : List UInt8) :
    String.utf8EncodeChar c ++ front < String.utf8EncodeChar d ++ back := by
  have hlt : c.val.toNat < d.val.toNat := h
  have hbound : d.val.toNat < 0x110000 := by
    have hvalid := d.valid
    simp only [UInt32.isValidChar, Nat.isValidChar] at hvalid
    omega
  unfold String.utf8EncodeChar
  generalize c.val.toNat = m at *
  generalize d.val.toNat = n at *
  -- Codes are written in base 64, and the bytes of a character are the digits with a mark.
  have hmiddle : m / 4096 = m / 64 / 64 ∧ n / 4096 = n / 64 / 64 := by omega
  have hfront : m / 262144 = m / 64 / 64 / 64 ∧ n / 262144 = n / 64 / 64 / 64 := by omega
  have hfirst : m / 64 / 64 / 64 % 8 = m / 64 / 64 / 64 ∧
      n / 64 / 64 / 64 % 8 = n / 64 / 64 / 64 := by omega
  have hfourth := div_lt_or_mod_lt hlt
  have hthird := div_lt_or_mod_lt (m := m / 64) (n := n / 64)
  have hsecond := div_lt_or_mod_lt (m := m / 64 / 64) (n := n / 64 / 64)
  simp only [hmiddle, hfront, hfirst]
  split_ifs
  all_goals
    simp (disch := omega) only [List.cons_append, List.nil_append, List.cons_lt_cons_iff,
      UInt8.lt_iff_toNat_lt, ← UInt8.toNat_inj, toNat_ofNat_of_lt]
    omega

theorem utf8_lt (h : cs < ds) : utf8 cs < utf8 ds := by
  induction ds generalizing cs with
  | nil => exact absurd h (List.not_lt_nil cs)
  | cons d ds ih =>
      cases cs with
      | nil =>
          obtain ⟨first, rest, hbytes⟩ :=
            List.exists_cons_of_ne_nil (String.utf8EncodeChar_ne_nil (c := d))
          rw [utf8_cons, hbytes]
          exact List.nil_lt_cons _ _
      | cons c cs =>
          rw [utf8_cons, utf8_cons]
          rcases List.cons_lt_cons_iff.1 h with hlt | ⟨rfl, htail⟩
          · exact utf8EncodeChar_append_lt hlt _ _
          · exact List.append_left_lt (ih htail)

theorem lt_or_eq_or_gt_list (cs ds : List Char) : cs < ds ∨ cs = ds ∨ ds < cs := by
  rcases Decidable.em (cs < ds) with hlt | hnot
  · exact .inl hlt
  · rcases List.le_iff_lt_or_eq.1 (List.not_lt.1 hnot) with hlt | heq
    · exact .inr (.inr hlt)
    · exact .inr (.inl heq.symm)

/-- Bytes are ordered as characters are. -/
theorem utf8_lt_iff : utf8 cs < utf8 ds ↔ cs < ds := by
  refine ⟨fun h => ?_, utf8_lt⟩
  rcases lt_or_eq_or_gt_list cs ds with hlt | rfl | hgt
  · exact hlt
  · exact absurd h (List.lt_irrefl _)
  · exact absurd (utf8_lt hgt) (List.lt_asymm h)

/-- Texts with the same bytes are the same. -/
theorem utf8_injective : Function.Injective utf8 := by
  intro cs ds h
  rcases lt_or_eq_or_gt_list cs ds with hlt | heq | hgt
  · exact absurd (h ▸ utf8_lt hlt) (List.lt_irrefl _)
  · exact heq
  · exact absurd (h ▸ utf8_lt hgt) (List.lt_irrefl _)

/-- A text begins with another exactly if its bytes begin with the other's. -/
theorem utf8_prefix_iff : utf8 cs <+: utf8 ds ↔ cs <+: ds := by
  constructor
  · rintro ⟨rest, hrest⟩
    refine List.isPrefix_of_utf8Encode_append_eq_utf8Encode rest.toByteArray ?_
    show (utf8 cs).toByteArray ++ rest.toByteArray = (utf8 ds).toByteArray
    rw [← hrest, List.toByteArray_append]
  · rintro ⟨rest, rfl⟩
    exact ⟨utf8 rest, (utf8_append cs rest).symm⟩

/-! ## ASCII characters -/

section Ascii

variable {sep : Char}

/-- The byte of an ASCII character. -/
theorem utf8EncodeChar_of_lt (h : sep.toNat < 128) :
    String.utf8EncodeChar sep = [UInt8.ofNat sep.toNat] := by
  have hle : sep.val.toNat ≤ 0x7f := Nat.le_of_lt_succ h
  unfold String.utf8EncodeChar
  rw [if_pos hle]
  rfl

/-- No other character has that byte among its bytes. -/
theorem notMem_utf8EncodeChar (h : sep.toNat < 128) {c : Char} (hne : c ≠ sep) :
    UInt8.ofNat sep.toNat ∉ String.utf8EncodeChar c := by
  have hcode : c.val.toNat ≠ sep.toNat := fun heq => hne (Char.toNat_inj.1 heq)
  unfold String.utf8EncodeChar
  generalize c.val.toNat = n at *
  extract_lets m
  split_ifs
  all_goals
    simp only [List.mem_cons, List.not_mem_nil, or_false, ← UInt8.toNat_inj, UInt8.toNat_ofNat']
    omega

/-- The byte of an ASCII character stands in the bytes of a text if the character stands in
the text. -/
theorem mem_utf8_iff (h : sep.toNat < 128) : UInt8.ofNat sep.toNat ∈ utf8 cs ↔ sep ∈ cs := by
  rw [utf8, List.mem_flatMap]
  constructor
  · rintro ⟨c, hc, hbyte⟩
    by_cases hsep : c = sep
    · exact hsep ▸ hc
    · exact absurd hbyte (notMem_utf8EncodeChar h hsep)
  · intro hsep
    exact ⟨sep, hsep, by rw [utf8EncodeChar_of_lt h]; exact List.mem_singleton_self _⟩

/-- The bytes in front of the first one of a kind, and those behind it. -/
def cutFirstByte (sep : UInt8) : List UInt8 → Option (List UInt8 × List UInt8)
  | [] => none
  | b :: rest =>
    if b = sep then some ([], rest)
    else (cutFirstByte sep rest).map fun halves => (b :: halves.1, halves.2)

/-- Bytes of another kind go to the front. -/
theorem cutFirstByte_append {sep : UInt8} {front : List UInt8} (h : sep ∉ front)
    (back : List UInt8) : cutFirstByte sep (front ++ back) =
      (cutFirstByte sep back).map fun halves => (front ++ halves.1, halves.2) := by
  induction front with
  | nil => simp
  | cons b rest ih =>
      simp only [List.mem_cons, not_or] at h
      simp [cutFirstByte, Ne.symm h.1, ih h.2, Function.comp_def]

/-- Cutting the bytes at an ASCII character is cutting the text there. -/
theorem cutFirstByte_utf8 (h : sep.toNat < 128) (cs : List Char) :
    cutFirstByte (UInt8.ofNat sep.toNat) (utf8 cs) =
      (cutFirst sep cs).map fun halves => (utf8 halves.1, utf8 halves.2) := by
  induction cs with
  | nil => rfl
  | cons c rest ih =>
      rw [utf8_cons, cutFirst]
      by_cases hc : c = sep
      · simp [hc, utf8EncodeChar_of_lt h, cutFirstByte]
      · rw [cutFirstByte_append (notMem_utf8EncodeChar h hc), ih, if_neg hc, Option.map_map,
          Option.map_map]
        rfl

end Ascii

end Thesaurus.Text
