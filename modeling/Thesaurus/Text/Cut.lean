/-!
# Cutting texts at a character

The two ways in which this library takes a text apart: at the first occurrence
of a character (`type:target`, `name:local`, edge keys) and at every occurrence
(the entries of a cell).

## Main results

* `cutFirst_append`: putting a separator after a text that lacks it and cutting
  there gives both halves back.
* `eq_append_of_cutFirst`: what was cut is the two halves around the separator,
  and the first half lacks it.
* `not_mem_of_mem_pieces`: no piece holds the separator.
* `pieces_joined`: texts that lack the separator survive being joined and cut.
-/

namespace Thesaurus.Text

/-- The text before and after the first `sep`, if it occurs. -/
def cutFirst (sep : Char) : List Char → Option (List Char × List Char)
  | [] => none
  | c :: rest =>
    if c = sep then some ([], rest)
    else (cutFirst sep rest).map fun halves => (c :: halves.1, halves.2)

/-- The texts between the occurrences of `sep`: one more than there are of it. -/
def pieces (sep : Char) : List Char → List (List Char)
  | [] => [[]]
  | c :: rest =>
    if c = sep then [] :: pieces sep rest
    else
      match pieces sep rest with
      | [] => [[c]]
      | piece :: others => (c :: piece) :: others

/-- The texts with `sep` between neighbours. -/
def joined (sep : Char) : List (List Char) → List Char
  | [] => []
  | [piece] => piece
  | piece :: others => piece ++ sep :: joined sep others

/-! ## Laws -/

theorem cutFirst_append {sep : Char} {front : List Char} (h : sep ∉ front)
    (back : List Char) : cutFirst sep (front ++ sep :: back) = some (front, back) := by
  induction front with
  | nil => simp [cutFirst]
  | cons c rest ih =>
    simp only [List.mem_cons, not_or] at h
    simp [cutFirst, Ne.symm h.1, ih h.2]

theorem eq_append_of_cutFirst {sep : Char} {cs front back : List Char}
    (h : cutFirst sep cs = some (front, back)) :
    cs = front ++ sep :: back ∧ sep ∉ front := by
  induction cs generalizing front with
  | nil => simp [cutFirst] at h
  | cons c rest ih =>
    rw [cutFirst] at h
    split at h
    · next hc =>
      obtain ⟨rfl, rfl⟩ := Prod.mk.inj (Option.some.inj h)
      simp [hc]
    · next hc =>
      obtain ⟨⟨front', back'⟩, hcut, hpair⟩ := Option.map_eq_some_iff.1 h
      obtain ⟨rfl, rfl⟩ := Prod.mk.inj hpair
      obtain ⟨rfl, hfree⟩ := ih hcut
      simp [hfree, Ne.symm hc]

theorem cutFirst_eq_none_iff {sep : Char} {cs : List Char} :
    cutFirst sep cs = none ↔ sep ∉ cs := by
  induction cs with
  | nil => simp [cutFirst]
  | cons c rest ih =>
    rw [cutFirst]
    split
    · next hc => simp [hc]
    · next hc => simp [ih, Ne.symm hc]

theorem pieces_ne_nil (sep : Char) (cs : List Char) : pieces sep cs ≠ [] := by
  cases cs with
  | nil => simp [pieces]
  | cons c rest =>
    rw [pieces]
    split
    · simp
    · split <;> simp

theorem pieces_of_not_mem {sep : Char} {cs : List Char} (h : sep ∉ cs) :
    pieces sep cs = [cs] := by
  induction cs with
  | nil => rfl
  | cons c rest ih =>
    simp only [List.mem_cons, not_or] at h
    simp [pieces, Ne.symm h.1, ih h.2]

theorem pieces_append {sep : Char} {front : List Char} (h : sep ∉ front)
    (back : List Char) : pieces sep (front ++ sep :: back) = front :: pieces sep back := by
  induction front with
  | nil => simp [pieces]
  | cons c rest ih =>
    simp only [List.mem_cons, not_or] at h
    simp [pieces, Ne.symm h.1, ih h.2]

theorem not_mem_of_mem_pieces {sep : Char} {cs piece : List Char} (h : piece ∈ pieces sep cs) :
    sep ∉ piece := by
  induction cs generalizing piece with
  | nil =>
    rw [pieces, List.mem_singleton] at h
    simp [h]
  | cons c rest ih =>
    rw [pieces] at h
    split at h
    · next hc =>
      rcases List.mem_cons.1 h with rfl | h
      · simp
      · exact ih h
    · next hc =>
      obtain ⟨first, others, hrest⟩ := List.exists_cons_of_ne_nil (pieces_ne_nil sep rest)
      rw [hrest] at h ih
      rcases List.mem_cons.1 h with rfl | h
      · simp [Ne.symm hc, ih List.mem_cons_self]
      · exact ih (List.mem_cons_of_mem _ h)

theorem pieces_joined {sep : Char} {texts : List (List Char)} (hne : texts ≠ [])
    (h : ∀ t ∈ texts, sep ∉ t) : pieces sep (joined sep texts) = texts := by
  induction texts with
  | nil => exact absurd rfl hne
  | cons t others ih =>
    cases others with
    | nil => simpa [joined] using pieces_of_not_mem (h t (by simp))
    | cons u more =>
      rw [joined, pieces_append (h t (by simp)) _,
        ih (by simp) fun v hv => h v (List.mem_cons_of_mem _ hv)]
      simp

/-- Texts with nothing between them. -/
theorem toList_concat (texts : List String) :
    ("".intercalate texts).toList = texts.flatMap String.toList := by
  rw [String.toList_intercalate]
  induction texts with
  | nil => rfl
  | cons t others ih =>
    cases others with
    | nil => simp
    | cons u more =>
      rw [List.flatMap_cons, ← ih]
      simp [List.intercalate_cons_cons]

end Thesaurus.Text
