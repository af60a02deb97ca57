/-!
# Ordered tables

A finite map from texts, kept in the order of its keys. The order is that of
code points, which is also the byte order of the UTF-8 forms, so a table answers
range questions the way an ordered store on disk does.

The keys increase strictly, and the type carries that fact: a table is determined
by what it holds, and no key occurs twice.

## Main results

* `get?_insert`, `get?_erase`: the view of a table after each operation.
* `mem_entries_iff`: the entries are exactly what `get?` finds.
-/

namespace Thesaurus

/-- Puts an entry at its place, over an entry of the same key. -/
def insertEntry {α : Type} (key : String) (a : α) : List (String × α) → List (String × α)
  | [] => [(key, a)]
  | (k, b) :: rest =>
    if key < k then (key, a) :: (k, b) :: rest
    else if key = k then (key, a) :: rest
    else (k, b) :: insertEntry key a rest

theorem fst_mem_insertEntry {α : Type} {key : String} {a : α} {entries : List (String × α)}
    {e : String × α} (h : e ∈ insertEntry key a entries) : e = (key, a) ∨ e ∈ entries := by
  induction entries with
  | nil => simpa [insertEntry] using h
  | cons head rest ih =>
    rw [insertEntry] at h
    split at h
    · simpa using h
    · split at h
      · rcases List.mem_cons.1 h with h | h
        · exact .inl h
        · exact .inr (List.mem_cons_of_mem _ h)
      · rcases List.mem_cons.1 h with h | h
        · exact .inr (h ▸ List.mem_cons_self)
        · rcases ih h with h | h
          · exact .inl h
          · exact .inr (List.mem_cons_of_mem _ h)

theorem increasing_insertEntry {α : Type} {key : String} {a : α}
    {entries : List (String × α)} (h : entries.Pairwise (·.1 < ·.1)) :
    (insertEntry key a entries).Pairwise (·.1 < ·.1) := by
  induction entries with
  | nil => simp [insertEntry]
  | cons head rest ih =>
    obtain ⟨hhead, hrest⟩ := List.pairwise_cons.1 h
    rw [insertEntry]
    split
    · next hlt =>
      refine List.pairwise_cons.2 ⟨fun e he => ?_, h⟩
      rcases List.mem_cons.1 he with rfl | he
      · exact hlt
      · exact String.lt_trans hlt (hhead e he)
    · next hnlt =>
      split
      · next heq => exact List.pairwise_cons.2 ⟨fun e he => heq ▸ hhead e he, hrest⟩
      · next hne =>
        refine List.pairwise_cons.2 ⟨fun e he => ?_, ih hrest⟩
        rcases fst_mem_insertEntry he with rfl | he
        · rcases String.le_total head.1 key with hle | hle
          · exact Decidable.byContradiction fun hc =>
              hne (String.le_antisymm (String.not_lt.1 hc) hle)
          · exact absurd (String.le_antisymm hle (String.not_lt.1 hnlt)) hne
        · exact hhead e he

/-- A map from texts, in the order of its keys. -/
structure Table (α : Type) where
  entries : List (String × α) := []
  increasing : entries.Pairwise (·.1 < ·.1) := by exact List.Pairwise.nil

namespace Table

variable {α : Type}

instance : Inhabited (Table α) := ⟨{}⟩

/-- The table without entries. -/
def empty : Table α := {}

/-- The value of a key. -/
def get? (t : Table α) (key : String) : Option α :=
  (t.entries.find? (·.1 == key)).map (·.2)

/-- Whether the key has a value. -/
def contains (t : Table α) (key : String) : Bool := (t.get? key).isSome

/-- Sets the value of a key. -/
def insert (t : Table α) (key : String) (a : α) : Table α where
  entries := insertEntry key a t.entries
  increasing := increasing_insertEntry t.increasing

/-- Removes a key. -/
def erase (t : Table α) (key : String) : Table α where
  entries := t.entries.filter (·.1 != key)
  increasing := t.increasing.filter _

/-- The keys in increasing order. -/
def keys (t : Table α) : List String := t.entries.map (·.1)

/-- The values in the order of their keys. -/
def values (t : Table α) : List α := t.entries.map (·.2)

/-- The sum of a table of counts. -/
def total (t : Table Nat) : Nat := t.values.foldr (· + ·) 0

/-! ## The view -/

theorem mem_entries_iff {t : Table α} {key : String} {a : α} :
    (key, a) ∈ t.entries ↔ t.get? key = some a := by
  obtain ⟨entries, increasing⟩ := t
  simp only [get?]
  induction entries with
  | nil => simp
  | cons head rest ih =>
    obtain ⟨hhead, hrest⟩ := List.pairwise_cons.1 increasing
    by_cases hk : head.1 = key
    · subst hk
      simp only [List.mem_cons, List.find?_cons, beq_self_eq_true, Option.map_some,
        Option.some.injEq]
      constructor
      · rintro (h | h)
        · rw [← h]
        · exact absurd (hhead _ h) (String.lt_irrefl _)
      · exact fun h => .inl (by rw [← h])
    · simp only [List.mem_cons, List.find?_cons, beq_eq_false_iff_ne.2 hk, ih hrest]
      exact ⟨fun h => h.resolve_left fun h => hk (by rw [← h]), .inr⟩

theorem mem_insertEntry_self {key : String} {a : α} (entries : List (String × α)) :
    (key, a) ∈ insertEntry key a entries := by
  induction entries with
  | nil => simp [insertEntry]
  | cons head rest ih =>
    rw [insertEntry]
    split
    · simp
    · split
      · simp
      · exact List.mem_cons_of_mem _ ih

theorem mem_insertEntry_of_ne {key other : String} {a b : α} {entries : List (String × α)}
    (h : other ≠ key) :
    (other, b) ∈ insertEntry key a entries ↔ (other, b) ∈ entries := by
  induction entries with
  | nil => simp [insertEntry, h]
  | cons head rest ih =>
    obtain ⟨k, c⟩ := head
    rw [insertEntry]
    split
    · simp [h]
    · split
      · next heq => simp [h, ← heq]
      · simp [ih]

theorem get?_insert (t : Table α) (key other : String) (a : α) :
    (t.insert key a).get? other = if other = key then some a else t.get? other := by
  split
  · next h =>
    subst h
    exact mem_entries_iff.1 (mem_insertEntry_self t.entries)
  · next h =>
    refine Option.ext fun b => ?_
    rw [← mem_entries_iff, ← mem_entries_iff]
    exact mem_insertEntry_of_ne h

theorem get?_erase (t : Table α) (key other : String) :
    (t.erase key).get? other = if other = key then none else t.get? other := by
  refine Option.ext fun b => ?_
  rw [← mem_entries_iff]
  split
  · next h => simp [erase, h]
  · next h =>
    rw [← mem_entries_iff]
    simp [erase, h]

@[simp] theorem get?_empty (key : String) : (empty : Table α).get? key = none := rfl

end Table

end Thesaurus
