import Thesaurus.Json.Decode
import Thesaurus.Proofs.Json.Tokens

/-!
# Trees of printed values

The tokens of a value lead the builder of trees from where a value may come to where
one is complete, whatever frames are open around it. A printed value is therefore read
as its own tree, to which nothing is missing, and decoding the text of a value is
decoding the tree of the value.

## Main definitions

* `Building.Builds`: tokens that build a tree where a value may come.

## Main results

* `builds_tokens`: the tokens of a value build its tree.
* `readTree_pretty`: a printed value is read as its tree.
* `ofText_pretty`: decoding a printed value.
-/

namespace Thesaurus.Json

/-- Parts between separators begin with the first part. -/
theorem exists_intercalate_cons {α : Type} (separator first : List α) (others : List (List α)) :
    ∃ rest, separator.intercalate (first :: others) = first ++ rest := by
  cases others with
  | nil => exact ⟨[], by simp⟩
  | cons next more =>
      exact ⟨separator ++ separator.intercalate (next :: more),
        by rw [List.intercalate_cons_cons, List.append_assoc]⟩

namespace Building

variable {outer : List Frame}

/-- Tokens that build a tree where a value may come. -/
def Builds (tokens : List Token) (tree : Tree) : Prop :=
  ∀ frames rest,
    (Building.value frames).run (tokens ++ rest) = (Building.complete tree frames).run rest

/-! ## Items and fields -/

/-- The items of an array, from one of them to the closing bracket. -/
theorem run_items (outer : List Frame) {items : List Value} (hne : items ≠ [])
    (h : ∀ v ∈ items, Builds v.tokens v.toTree) (rest : List Token) :
    ∀ before : List Tree,
      (Building.value (.array before :: outer)).run
          ([Token.comma].intercalate (itemTokens items) ++ .rightBracket :: rest) =
        (Building.complete (.array (before.reverse ++ toTrees items) none) outer).run rest := by
  induction items with
  | nil => exact absurd rfl hne
  | cons v others ih =>
      intro before
      have hv := h v (by simp)
      cases others with
      | nil =>
          rw [itemTokens, itemTokens, List.intercalate_singleton, hv]
          show (Building.complete (.array (v.toTree :: before).reverse none) outer).run rest = _
          simp [toTrees]
      | cons next more =>
          have hrest := ih (by simp) (fun u hu => h u (by simp [hu])) (v.toTree :: before)
          rw [itemTokens, itemTokens, List.intercalate_cons_cons, List.append_assoc,
            List.append_assoc, List.singleton_append, hv]
          show (Building.value (.array (v.toTree :: before) :: outer)).run _ = _
          rw [itemTokens] at hrest
          rw [hrest]
          simp [toTrees]

/-- The fields of an object, from one of them to the closing brace. -/
theorem run_fields (outer : List Frame) {fields : List (String × Value)} (hne : fields ≠ [])
    (h : ∀ f ∈ fields, Builds f.2.tokens f.2.toTree) (rest : List Token) :
    ∀ before : List (Except Malformation String × Tree),
      (Building.field before outer).run
          ([Token.comma].intercalate (fieldTokens fields) ++ .rightBrace :: rest) =
        (Building.complete (.object (before.reverse ++ toFields fields) none) outer).run rest := by
  induction fields with
  | nil => exact absurd rfl hne
  | cons f others ih =>
      intro before
      have hf := h f (by simp)
      have hname : ∀ more, (Building.field before outer).run
          (.string (.ok f.1) :: .colon :: f.2.tokens ++ more) =
            (Building.complete f.2.toTree (.object before (.ok f.1) :: outer)).run more :=
        fun more => hf (.object before (.ok f.1) :: outer) more
      cases others with
      | nil =>
          rw [fieldTokens, fieldTokens, List.intercalate_singleton, hname]
          show (Building.complete
            (.object ((.ok f.1, f.2.toTree) :: before).reverse none) outer).run rest = _
          simp [toFields]
      | cons next more =>
          have hrest := ih (by simp) (fun u hu => h u (by simp [hu]))
            ((.ok f.1, f.2.toTree) :: before)
          rw [fieldTokens, fieldTokens, List.intercalate_cons_cons, List.append_assoc,
            List.append_assoc, List.singleton_append, hname]
          show (Building.field ((.ok f.1, f.2.toTree) :: before) outer).run _ = _
          rw [fieldTokens] at hrest
          rw [hrest]
          simp [toFields]

/-- The first item of an array is read like any other. -/
theorem run_firstItem (v : Value) (others : List Value) (rest : List Token) :
    (Building.firstItem outer).run ([Token.comma].intercalate (itemTokens (v :: others)) ++ rest) =
      (Building.value (.array [] :: outer)).run
        ([Token.comma].intercalate (itemTokens (v :: others)) ++ rest) := by
  obtain ⟨more, hmore⟩ := exists_intercalate_cons [Token.comma] v.tokens (itemTokens others)
  rw [itemTokens, hmore, List.append_assoc]
  cases v <;> rfl

/-- The first field of an object is read like any other. -/
theorem run_firstField (f : String × Value) (others : List (String × Value))
    (rest : List Token) :
    (Building.firstField outer).run
        ([Token.comma].intercalate (fieldTokens (f :: others)) ++ rest) =
      (Building.field [] outer).run
        ([Token.comma].intercalate (fieldTokens (f :: others)) ++ rest) := by
  obtain ⟨more, hmore⟩ := exists_intercalate_cons [Token.comma]
    (.string (.ok f.1) :: .colon :: f.2.tokens) (fieldTokens others)
  rw [fieldTokens, hmore, List.append_assoc]
  rfl

end Building

/-! ## Values -/

open Building

/-- The tokens of a value build its tree. -/
theorem builds_tokens {v : Value} (h : v.IsNatural) : Builds v.tokens v.toTree := by
  induction h with
  | null => exact fun _ _ => rfl
  | bool b => exact fun _ _ => rfl
  | nat h => exact fun _ _ => rfl
  | string s => exact fun _ _ => rfl
  | @array items h ih =>
      intro frames rest
      rw [Value.tokens, List.append_assoc, List.cons_append]
      show (Building.firstItem frames).run _ = _
      cases items with
      | nil => rfl
      | cons v others =>
          have hitems := run_items frames (List.cons_ne_nil v others) ih rest []
          rw [List.singleton_append, run_firstItem, hitems]
          rfl
  | @object fields h ih =>
      intro frames rest
      rw [Value.tokens, List.append_assoc, List.cons_append]
      show (Building.firstField frames).run _ = _
      cases fields with
      | nil => rfl
      | cons f others =>
          have hfields := run_fields frames (List.cons_ne_nil f others) ih rest []
          rw [List.singleton_append, run_firstField, hfields]
          rfl

/-- A printed value is read as its tree, and nothing follows it. -/
theorem readTree_pretty {v : Value} (h : v.IsNatural) : readTree v.pretty = (v.toTree, true) := by
  have hrun := builds_tokens h [] []
  rw [List.append_nil] at hrun
  rw [readTree, tokens_pretty h, hrun]
  rfl

/-- Decoding a printed value is decoding the value. -/
theorem ofText_pretty {α : Type} (d : Decoder α) {v : Value} (h : v.IsNatural) :
    ofText d v.pretty = d.decode (.text maxDepth) v.toTree := by
  rw [ofText, readTree_pretty h]
  show (d.decode (.text maxDepth) v.toTree >>= fun a => pure a) = _
  exact bind_pure _

end Thesaurus.Json
