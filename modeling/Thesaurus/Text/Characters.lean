import Thesaurus.Text.CaseTable
import Thesaurus.Text.VisibleTable

/-!
# Kinds of characters

Which characters are white space, which are capital or small letters, and which show
nothing of their own.

White space is that of the Unicode `White_Space` property. Cell entries, sheet fields
and export literals are all trimmed by this one rule. The case properties go after the
table of `Thesaurus.Text.CaseTable`; the capital form is the full one, so a ligature or
a letter without a capital of its own becomes several characters. A message shows a text
that may hold unprintable characters between double quotes, with an escape for every
character that would not be seen as itself.

## Main results

* `trim_eq_self_iff`: a text equals its own trim exactly when neither end is
  blank.
* `trim_trim`: trimming twice is trimming once.
* `trim_sublist`: trimming leaves part of a text.
-/

namespace Thesaurus.Text

/-! ## White space -/

/-- White space: the characters with the `White_Space` property. -/
def isBlank (c : Char) : Bool :=
  let n := c.toNat
  (9 ≤ n && n ≤ 13) || n == 0x20 || n == 0x85 || n == 0xA0 || n == 0x1680
    || (0x2000 ≤ n && n ≤ 0x200A) || n == 0x2028 || n == 0x2029 || n == 0x202F
    || n == 0x205F || n == 0x3000

/-- Drops the blanks at the end. -/
def trimEnd (cs : List Char) : List Char :=
  (cs.reverse.dropWhile isBlank).reverse

/-- Drops the blanks at both ends. -/
def trim (cs : List Char) : List Char :=
  trimEnd (cs.dropWhile isBlank)

/-- The text without the blanks at both ends. -/
def trimmed (s : String) : String := .ofList (trim s.toList)

/-- The text without the blanks at its end. -/
def trimmedEnd (s : String) : String := .ofList (trimEnd s.toList)

/-- Nothing but blanks. -/
def isAllBlank (s : String) : Bool := s.toList.all isBlank

/-! ### Trimming -/

theorem dropWhile_eq_self_iff {p : Char → Bool} {cs : List Char} :
    cs.dropWhile p = cs ↔ ∀ c, cs.head? = some c → p c = false := by
  cases cs with
  | nil => simp
  | cons c rest =>
    cases hc : p c with
    | false => simp [List.dropWhile, hc]
    | true =>
      simp only [List.dropWhile_cons, hc, if_true, List.head?_cons, Option.some.injEq,
        forall_eq']
      constructor
      · intro h
        have hle := (List.dropWhile_suffix (l := rest) p).length_le
        rw [h, List.length_cons] at hle
        omega
      · simp

theorem trimEnd_eq_self_iff {cs : List Char} :
    trimEnd cs = cs ↔ ∀ c, cs.getLast? = some c → isBlank c = false := by
  rw [trimEnd, List.reverse_eq_iff, dropWhile_eq_self_iff, List.head?_reverse]

theorem getLast?_trimEnd {cs : List Char} {c : Char}
    (h : (trimEnd cs).getLast? = some c) : isBlank c = false := by
  rw [trimEnd, List.getLast?_reverse] at h
  have := List.head?_dropWhile_not isBlank cs.reverse
  simpa [h] using this

theorem head?_trimEnd {cs : List Char} {c : Char}
    (h : (trimEnd cs).head? = some c) : cs.head? = some c := by
  rw [trimEnd, List.head?_reverse] at h
  have hs := List.dropWhile_suffix (l := cs.reverse) isBlank
  obtain ⟨front, hfront⟩ := hs
  have : cs.reverse.getLast? = some c := by
    rw [← hfront, List.getLast?_append, h]
    rfl
  simpa using this

theorem trim_eq_self_iff {cs : List Char} :
    trim cs = cs ↔ (∀ c, cs.head? = some c → isBlank c = false) ∧
      ∀ c, cs.getLast? = some c → isBlank c = false := by
  constructor
  · intro h
    constructor
    · intro c hc
      rw [← h] at hc
      have := head?_trimEnd hc
      have hd := List.head?_dropWhile_not isBlank cs
      simpa [this] using hd
    · intro c hc
      rw [← h] at hc
      exact getLast?_trimEnd hc
  · rintro ⟨hhead, hlast⟩
    rw [trim, dropWhile_eq_self_iff.2 hhead, trimEnd_eq_self_iff.2 hlast]

@[simp] theorem trim_trim (cs : List Char) : trim (trim cs) = trim cs := by
  rw [trim_eq_self_iff]
  constructor
  · intro c hc
    have := head?_trimEnd hc
    have hd := List.head?_dropWhile_not isBlank cs
    simpa [this] using hd
  · exact fun c hc => getLast?_trimEnd hc

/-- Trimming leaves part of a text. -/
theorem trim_sublist (cs : List Char) : (trim cs).Sublist cs := by
  have hstart : (cs.dropWhile isBlank).Sublist cs := List.dropWhile_sublist isBlank
  have hend : ∀ ds : List Char, (trimEnd ds).Sublist ds := by
    intro ds
    have hkept := (List.dropWhile_sublist isBlank (l := ds.reverse)).reverse
    rwa [List.reverse_reverse] at hkept
  exact (hend _).trans hstart

/-! ## Letter case -/

/-- Whether a code point is one of `first`, `first + step`, … `last`. -/
def inStride (n : Nat) : Nat × Nat × Nat → Bool
  | (first, last, step) => first ≤ n && n ≤ last && (n - first) % step == 0

/-- The `Lowercase` property. -/
def isLowercase (c : Char) : Bool :=
  lowercaseStrides.any (inStride c.toNat)

/-- The `Uppercase` property. -/
def isUppercase (c : Char) : Bool :=
  uppercaseStrides.any (inStride c.toNat)

/-- The capital form of a character; characters without one stay as they are. -/
def capital (c : Char) : List Char :=
  match capitalExpansions.find? (·.1 == c.toNat) with
  | some (_, form) => form.map Char.ofNat
  | none =>
    match capitalShifts.find? (inStride c.toNat ·.1) with
    | some (_, distance) => [Char.ofNat (c.toNat + distance).toNat]
    | none => [c]

example : capital 'a' = ['A'] ∧ capital 'ß' = ['S', 'S'] ∧ capital 'A' = ['A'] := by decide
example : isLowercase 'ª' = true ∧ isUppercase 'Γ' = true ∧ isUppercase 'ǅ' = false := by decide

/-! ## Visible characters -/

/-- Whether a code point lies in one of the inclusive ranges. -/
def inRanges (n : Nat) (ranges : List (Nat × Nat)) : Bool :=
  ranges.any fun r => r.1 ≤ n && n ≤ r.2

/-- The half-width sound marks. They extend the character before them, but have a
width of their own and are seen also alone. -/
def isSoundMark (c : Char) : Bool := c = '\uff9e' || c = '\uff9f'

/-- Marks that join the character before them, so that alone they are not seen. -/
def isExtending (c : Char) : Bool := inRanges c.toNat extendingRanges && !isSoundMark c

/-- Characters that show nothing of their own. -/
def isHidden (c : Char) : Bool := inRanges c.toNat hiddenRanges || inRanges c.toNat fillerRanges

/-- The escape by code point, in lower-case hexadecimal without padding. -/
def codePointEscape (c : Char) : List Char :=
  "\\u\x7b".toList ++ Nat.toDigits 16 c.toNat ++ "\x7d".toList

/-- How one character stands between the quotes. -/
def quotedChar (c : Char) : List Char :=
  if c = '\x00' then ['\\', '0']
  else if c = '\t' then ['\\', 't']
  else if c = '\r' then ['\\', 'r']
  else if c = '\n' then ['\\', 'n']
  else if c = '\\' then ['\\', '\\']
  else if c = '"' then ['\\', '"']
  else if isExtending c || isHidden c then codePointEscape c
  else [c]

/-- The text between quotes, unseen characters escaped. -/
def quoted (s : String) : String :=
  .ofList ('"' :: s.toList.flatMap quotedChar ++ ['"'])

example : quoted "a\x1fb" = "\"a\\u\x7b1f\x7db\"" := by decide +kernel
example : quoted "\uff8a\uff9e" = "\"\uff8a\uff9e\"" := by decide +kernel
example : quoted "\u3164" = "\"\\u\x7b3164\x7d\"" := by decide +kernel

end Thesaurus.Text
