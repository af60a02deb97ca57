import Mathlib.Data.List.Nodup
import Thesaurus.Proofs.Store.Keys

/-!
# The order of outgoing edges

One store sorts the edges of a term by type and target, another reads them in the
order of their keys. The separator sorts before every character of a type name,
so the keys of one source are in the order of types first and of targets next,
also where one type name is the beginning of another.

## Main definitions

* `Edge.Precedes`: the strict order by type and target.

## Main results

* `Edge.leByType_trans`, `Edge.leByType_total`, `Edge.leByType_antisymm`: an order
  on the edges of a term.
* `Edge.leByType_of_key_lt`: the order of keys is that order.
-/

namespace Thesaurus

namespace Edge

variable {a b c : Edge}

/-! ## By type and target -/

theorem leByType_iff :
    a.leByType b = true ↔
      a.type < b.type ∨ a.type = b.type ∧ a.target.text ≤ b.target.text := by
  unfold leByType
  by_cases htype : a.type = b.type
  · simp [htype]
  · simp [htype]

theorem leByType_trans (hab : a.leByType b = true) (hbc : b.leByType c = true) :
    a.leByType c = true := by
  rw [leByType_iff] at hab hbc ⊢
  rcases hab with hab | ⟨hab, htarget⟩
  · rcases hbc with hbc | ⟨hbc, -⟩
    · exact .inl (String.lt_trans hab hbc)
    · exact .inl (hbc ▸ hab)
  · rcases hbc with hbc | ⟨hbc, htarget'⟩
    · exact .inl (hab ▸ hbc)
    · exact .inr ⟨hab.trans hbc, String.le_trans htarget htarget'⟩

theorem lt_or_eq_or_gt_text (x y : String) : x < y ∨ x = y ∨ y < x := by
  by_cases hxy : x < y
  · exact .inl hxy
  · by_cases hyx : y < x
    · exact .inr (.inr hyx)
    · exact .inr (.inl (String.le_antisymm (String.not_lt.1 hyx) (String.not_lt.1 hxy)))

theorem leByType_total (a b : Edge) : (a.leByType b || b.leByType a) = true := by
  rw [Bool.or_eq_true, leByType_iff, leByType_iff]
  rcases lt_or_eq_or_gt_text a.type b.type with hlt | heq | hgt
  · exact .inl (.inl hlt)
  · rcases String.le_total a.target.text b.target.text with hle | hle
    · exact .inl (.inr ⟨heq, hle⟩)
    · exact .inr (.inr ⟨heq.symm, hle⟩)
  · exact .inr (.inl hgt)

theorem leByType_antisymm (hsource : a.source = b.source) (hab : a.leByType b = true)
    (hba : b.leByType a = true) : a = b := by
  rw [leByType_iff] at hab hba
  have htype : a.type = b.type := by
    rcases hab with hab | ⟨hab, -⟩
    · rcases hba with hba | ⟨hba, -⟩
      · exact absurd (String.lt_trans hab hba) (String.lt_irrefl _)
      · exact hba.symm
    · exact hab
  rw [htype] at hab hba
  have hto := (hab.resolve_left (String.lt_irrefl _)).2
  have hfro := (hba.resolve_left (String.lt_irrefl _)).2
  have htarget : a.target = b.target :=
    TermId.ext_text (congrArg String.toList (String.le_antisymm hto hfro))
  obtain ⟨source, target, type⟩ := a
  simp_all

/-- By type, and by target where the types agree. -/
def Precedes (e f : Edge) : Prop :=
  e.type < f.type ∨ e.type = f.type ∧ e.target.text < f.target.text

instance (e f : Edge) : Decidable (Precedes e f) :=
  inferInstanceAs (Decidable (_ ∨ _))

/-- Different edges of one source are in order strictly if they are in order at all. -/
theorem precedes_of_leByType (hsource : a.source = b.source) (hne : a ≠ b)
    (h : a.leByType b = true) : a.Precedes b := by
  rcases leByType_iff.1 h with htype | ⟨htype, htarget⟩
  · exact .inl htype
  · rcases lt_or_eq_or_gt_text a.target.text b.target.text with hlt | heq | hgt
    · exact .inr ⟨htype, hlt⟩
    · refine absurd (leByType_antisymm hsource h (leByType_iff.2 (.inr ⟨htype.symm, ?_⟩))) hne
      exact heq ▸ String.le_refl _
    · exact absurd hgt (String.not_lt.2 htarget)

theorem pairwise_mergeSort_leByType (edges : List Edge) :
    (edges.mergeSort leByType).Pairwise fun a b => a.leByType b = true := by
  refine List.pairwise_mergeSort ?_ leByType_total edges
  exact fun _ _ _ => leByType_trans

/-- However the edges of one source stand, they are sorted in one way. -/
theorem mergeSort_leByType_eq {edges edges' : List Edge} {id : TermId}
    (hsource : ∀ e ∈ edges, e.source = id) (hperm : edges.Perm edges') :
    edges.mergeSort leByType = edges'.mergeSort leByType := by
  have hsorted : (edges.mergeSort leByType).Perm (edges'.mergeSort leByType) :=
    (List.mergeSort_perm _ _).trans (hperm.trans (List.mergeSort_perm _ _).symm)
  refine hsorted.eq_of_pairwise ?_ (pairwise_mergeSort_leByType _) (pairwise_mergeSort_leByType _)
  intro a b ha hb hab hba
  have ha := hsource a (List.mem_mergeSort.1 ha)
  have hb := hsource b (hperm.mem_iff.2 (List.mem_mergeSort.1 hb))
  exact leByType_antisymm (ha.trans hb.symm) hab hba

/-- The edges of one source, sorted and each once, are in strict order. -/
theorem pairwise_precedes {edges : List Edge} {id : TermId}
    (hsource : ∀ e ∈ edges, e.source = id) (hnodup : edges.Nodup)
    (hsorted : edges.Pairwise fun a b => a.leByType b = true) : edges.Pairwise Precedes := by
  refine (hnodup.and hsorted).imp_of_mem fun {a b} ha hb h => ?_
  exact precedes_of_leByType ((hsource a ha).trans (hsource b hb).symm) h.1 h.2

/-! ## By key -/

theorem lt_of_append_lt_append {back back' : List Char} (front : List Char)
    (h : front ++ back < front ++ back') : back < back' := by
  induction front with
  | nil => exact h
  | cons c rest ih =>
      rcases List.cons_lt_cons_iff.1 h with hlt | ⟨-, htail⟩
      · exact absurd hlt (Char.lt_irrefl c)
      · exact ih htail

/-- Where all characters of the fronts come after the separator, texts joined by it
are ordered by their fronts, and by their backs if the fronts agree. -/
theorem front_lt_of_joined_lt {back back' : List Char} :
    ∀ front front' : List Char, (∀ c ∈ front, keySeparator < c) →
      (∀ c ∈ front', keySeparator < c) →
      front ++ keySeparator :: back < front' ++ keySeparator :: back' →
        front < front' ∨ front = front' ∧ back < back'
  | [], [], _, _, h => by
      rcases List.cons_lt_cons_iff.1 h with h | ⟨-, h⟩
      · exact absurd h (by decide)
      · exact .inr ⟨rfl, h⟩
  | [], _ :: _, _, _, _ => .inl (List.nil_lt_cons _ _)
  | c :: front, [], hfront, _, h => by
      have hc := hfront c List.mem_cons_self
      rcases List.cons_lt_cons_iff.1 h with h | ⟨h, -⟩
      · exact absurd (Char.lt_trans hc h) (Char.lt_irrefl _)
      · exact absurd (h ▸ hc) (Char.lt_irrefl _)
  | c :: front, c' :: front', hfront, hfront', h => by
      rcases List.cons_lt_cons_iff.1 h with hlt | ⟨heq, htail⟩
      · exact .inl (List.cons_lt_cons_iff.2 (.inl hlt))
      · subst heq
        have hrest := front_lt_of_joined_lt front front'
          (fun d hd => hfront d (List.mem_cons_of_mem _ hd))
          (fun d hd => hfront' d (List.mem_cons_of_mem _ hd)) htail
        rcases hrest with hlt | ⟨rfl, hback⟩
        · exact .inl (List.cons_lt_cons_iff.2 (.inr ⟨rfl, hlt⟩))
        · exact .inr ⟨rfl, hback⟩

/-- Letters and digits come after the separator. -/
theorem keySeparator_lt_of_isTypeName {name : String} (h : isTypeName name = true) :
    ∀ c ∈ name.toList, keySeparator < c := by
  intro c hc
  have hcode := isAlphanum_iff.1 (isAlphanum_of_isTypeName h c hc)
  have hseparator : keySeparator.toNat = 31 := rfl
  show keySeparator.toNat < c.toNat
  omega

/-- Keys of one source are ordered by type and target. -/
theorem leByType_of_key_lt (hsource : a.source = b.source) (ha : isTypeName a.type = true)
    (hb : isTypeName b.type = true) (h : a.key < b.key) : a.leByType b = true := by
  rw [String.lt_iff, toList_key, toList_key, hsource] at h
  have hback : keySeparator :: (a.type.toList ++ keySeparator :: a.target.text.toList) <
      keySeparator :: (b.type.toList ++ keySeparator :: b.target.text.toList) :=
    lt_of_append_lt_append b.source.text.toList h
  have hparts := front_lt_of_joined_lt _ _ (keySeparator_lt_of_isTypeName ha)
    (keySeparator_lt_of_isTypeName hb) (lt_of_append_lt_append [keySeparator] hback)
  rw [leByType_iff]
  rcases hparts with htype | ⟨htype, htarget⟩
  · exact .inl (String.lt_iff.2 htype)
  · refine .inr ⟨String.toList_injective htype, String.not_lt.1 fun hgt => ?_⟩
    exact String.lt_irrefl _ (String.lt_trans hgt (String.lt_iff.2 htarget))

end Edge

end Thesaurus
