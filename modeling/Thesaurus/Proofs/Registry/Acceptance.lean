import Mathlib.Data.List.Nodup
import Thesaurus.Registry

/-!
# What the acceptance of a registry guarantees

A registry carries the fact that the check of its list of types found nothing.
This file says what that fact means, one lemma for each stage of the check, and
draws from it what requests about relations rely on: a name leads to one type,
every name is well formed, and the implied type backwards is an involution.

## Main results

* `ownFlaws?_eq_none_iff`, `inverseFlaw?_eq_none_iff`: the stages of the check.
* `filter_name_eq`: where names are distinct, the type that is found is the only one.
* `Registry.get?_of_mem`: a registered type is what its name leads to.
* `Registry.implied?_symm`: implying backwards twice leads back.
-/

namespace Thesaurus

/-! ## The stages of the check -/

theorem mem_of_findType? {types : List RelationType} {name : String} {t : RelationType}
    (h : findType? types name = some t) : t ∈ types ∧ t.name = name := by
  refine ⟨List.mem_of_find?_eq_some h, ?_⟩
  have hname := List.find?_some h
  simpa using hname

theorem ownFlaw?_eq_none_iff {seen : List String} {t : RelationType} :
    ownFlaw? seen t = none ↔
      isTypeName t.name = true ∧ isColor t.color = true ∧ t.name ∉ seen := by
  unfold ownFlaw?
  by_cases hname : isTypeName t.name = true
  · by_cases hcolor : isColor t.color = true
    · by_cases hseen : t.name ∈ seen
      · simp [hname, hcolor, hseen]
      · simp [hname, hcolor, hseen]
    · simp [hname, hcolor]
  · simp [hname]

/-- No type is flawed by itself exactly when all are well formed and their names
are new and distinct. -/
theorem ownFlaws?_eq_none_iff (types : List RelationType) :
    ∀ seen : List String, ownFlaws? seen types = none ↔
      (∀ t ∈ types, isTypeName t.name = true ∧ isColor t.color = true ∧ t.name ∉ seen) ∧
        (types.map (·.name)).Nodup := by
  induction types with
  | nil => intro seen; simp [ownFlaws?]
  | cons t rest ih =>
      intro seen
      rw [ownFlaws?]
      cases hflaw : ownFlaw? seen t with
      | some flaw =>
          have hbad : ¬ (isTypeName t.name = true ∧ isColor t.color = true ∧
              t.name ∉ seen) := by
            rw [← ownFlaw?_eq_none_iff, hflaw]
            exact Option.some_ne_none flaw
          simp only [reduceCtorEq, false_iff, List.mem_cons, forall_eq_or_imp]
          exact fun h => hbad h.1.1
      | none =>
          have hown := ownFlaw?_eq_none_iff.1 hflaw
          simp only [ih, List.mem_cons, forall_eq_or_imp, not_or, List.map_cons,
            List.nodup_cons, List.mem_map, not_exists, not_and]
          constructor
          · rintro ⟨hrest, hnodup⟩
            exact ⟨⟨hown, fun u hu => ⟨(hrest u hu).1, (hrest u hu).2.1, (hrest u hu).2.2.2⟩⟩,
              fun u hu => (hrest u hu).2.2.1, hnodup⟩
          · rintro ⟨⟨-, hrest⟩, hnew, hnodup⟩
            exact ⟨fun u hu => ⟨(hrest u hu).1, (hrest u hu).2.1, hnew u hu, (hrest u hu).2.2⟩,
              hnodup⟩

/-- The inverse of a type is in order when the type is not symmetric and the type
it names points back. -/
theorem inverseFlaw?_eq_none_iff {types : List RelationType} {t : RelationType} :
    inverseFlaw? types t = none ↔ ∀ inverse, t.inverse = some inverse →
      t.isSymmetric = false ∧
        ∃ u, findType? types inverse = some u ∧ u.inverse = some t.name := by
  unfold inverseFlaw?
  cases hinverse : t.inverse with
  | none => simp
  | some inverse =>
      simp only [Option.some.injEq, forall_eq']
      cases hsymmetric : t.isSymmetric with
      | true => simp
      | false =>
          cases hfind : findType? types inverse with
          | none => simp
          | some u => simp

/-- A list is accepted exactly when it passes every stage. -/
theorem firstFlaw?_eq_none_iff {types : List RelationType} {defaultName : String} :
    firstFlaw? types defaultName = none ↔
      ownFlaws? [] types = none ∧ (∀ t ∈ types, inverseFlaw? types t = none) ∧
        (findType? types defaultName).isSome = true := by
  unfold firstFlaw?
  simp only [Option.or_eq_none_iff, List.findSome?_eq_none_iff, ite_eq_left_iff,
    reduceCtorEq, imp_false, Bool.not_eq_true, Bool.not_eq_false]

/-! ## Names of types -/

theorem toList_ne_nil_of_isTypeName {name : String} (h : isTypeName name = true) :
    name.toList ≠ [] := by
  intro hempty
  simp [isTypeName, hempty] at h

/-- Letters by their codes. -/
theorem isAlpha_iff {c : Char} :
    c.isAlpha = true ↔ 65 ≤ c.toNat ∧ c.toNat ≤ 90 ∨ 97 ≤ c.toNat ∧ c.toNat ≤ 122 := by
  show (decide (c.val ≥ 'A'.val ∧ c.val ≤ 'Z'.val) ||
    (decide (c.val ≥ 'a'.val) && decide (c.val ≤ 'z'.val))) = true ↔ _
  simp only [Bool.or_eq_true, Bool.and_eq_true, decide_eq_true_eq, ge_iff_le,
    UInt32.le_iff_toNat_le]
  rfl

/-- Letters and digits by their codes. -/
theorem isAlphanum_iff {c : Char} :
    c.isAlphanum = true ↔ (65 ≤ c.toNat ∧ c.toNat ≤ 90 ∨ 97 ≤ c.toNat ∧ c.toNat ≤ 122) ∨
      48 ≤ c.toNat ∧ c.toNat ≤ 57 := by
  show (decide (c.val ≥ 'A'.val ∧ c.val ≤ 'Z'.val) ||
    (decide (c.val ≥ 'a'.val) && decide (c.val ≤ 'z'.val)) ||
      (decide (c.val ≥ '0'.val) && decide (c.val ≤ '9'.val))) = true ↔ _
  simp only [Bool.or_eq_true, Bool.and_eq_true, decide_eq_true_eq, ge_iff_le,
    UInt32.le_iff_toNat_le]
  rfl

theorem isAlphanum_of_isTypeName {name : String} (h : isTypeName name = true) :
    ∀ c ∈ name.toList, c.isAlphanum = true := by
  unfold isTypeName at h
  cases hname : name.toList with
  | nil => intro c hc; exact absurd hc List.not_mem_nil
  | cons first rest =>
      rw [hname] at h
      simp only [Bool.and_eq_true, List.all_eq_true] at h
      intro c hc
      rcases List.mem_cons.1 hc with rfl | hc
      · simp [Char.isAlphanum, h.1]
      · exact h.2 c hc

/-! ## Types of a name -/

section Lookup

variable {types : List RelationType} {name : String}

/-- Where names are distinct, at most one type has a name, and it is the one that is
found. -/
theorem filter_name_eq (h : (types.map (·.name)).Nodup) (name : String) :
    types.filter (·.name == name) = (findType? types name).toList := by
  induction types with
  | nil => rfl
  | cons t rest ih =>
      have hnodup := List.nodup_cons.1 h
      have hrest := ih hnodup.2
      unfold findType? at hrest ⊢
      cases hname : t.name == name with
      | false =>
          simp only [List.filter_cons, List.find?_cons, hname, Bool.false_eq_true, if_false,
            hrest]
      | true =>
          -- no other type has this name
          have hothers : rest.filter (·.name == name) = [] := by
            refine List.filter_eq_nil_iff.2 fun u hu hsame => hnodup.1 ?_
            have hnames : u.name = t.name := (eq_of_beq hsame).trans (eq_of_beq hname).symm
            exact List.mem_map.2 ⟨u, hu, hnames⟩
          simp only [List.filter_cons, List.find?_cons, hname, if_true, hothers]
          rfl

theorem findType?_eq_some_iff (h : (types.map (·.name)).Nodup) {t : RelationType} :
    findType? types name = some t ↔ t ∈ types ∧ t.name = name := by
  rw [← Option.mem_toList, ← filter_name_eq h, List.mem_filter, beq_iff_eq]

theorem isSome_findType?_iff :
    (findType? types name).isSome = true ↔ ∃ t ∈ types, t.name = name := by
  unfold findType?
  rw [List.find?_isSome]
  simp only [beq_iff_eq]

end Lookup

/-! ## What holders of a registry rely on -/

namespace Registry

variable {r : Registry}

/-- A registry is what its own list of types is accepted as. -/
theorem ofTypes_types (r : Registry) : ofTypes r.types r.defaultName = .ok r := by
  unfold ofTypes
  split
  · next flaw hflaw =>
      rw [r.accepted] at hflaw
      cases hflaw
  · rfl

theorem types_of_ofTypes {types : List RelationType} {defaultName : String}
    (h : ofTypes types defaultName = .ok r) : r.types = types := by
  unfold ofTypes at h
  split at h
  · cases h
  · obtain rfl := Except.ok.inj h
    rfl

theorem defaultName_of_ofTypes {types : List RelationType} {defaultName : String}
    (h : ofTypes types defaultName = .ok r) :
    r.defaultName = defaultName := by
  unfold ofTypes at h
  split at h
  · cases h
  · obtain rfl := Except.ok.inj h
    rfl

theorem exists_ofTypes_iff {types : List RelationType} {defaultName : String} :
    (∃ r, ofTypes types defaultName = .ok r) ↔ firstFlaw? types defaultName = none := by
  constructor
  · rintro ⟨r, hr⟩
    rw [← types_of_ofTypes hr, ← defaultName_of_ofTypes hr]
    exact r.accepted
  · intro h
    exact ⟨_, ofTypes_types ⟨types, defaultName, h⟩⟩

theorem ownFlaws?_types (r : Registry) : ownFlaws? [] r.types = none :=
  (firstFlaw?_eq_none_iff.1 r.accepted).1

theorem mem_of_get? {name : String} {t : RelationType} (h : r.get? name = some t) :
    t ∈ r.types ∧ t.name = name :=
  mem_of_findType? h

theorem isTypeName_of_mem {t : RelationType} (h : t ∈ r.types) : isTypeName t.name = true :=
  (((ownFlaws?_eq_none_iff r.types []).1 r.ownFlaws?_types).1 t h).1

theorem nodup_names (r : Registry) : r.names.Nodup :=
  ((ownFlaws?_eq_none_iff r.types []).1 r.ownFlaws?_types).2

theorem isTypeName_of_contains {name : String} (h : r.contains name = true) :
    isTypeName name = true := by
  obtain ⟨t, ht⟩ := Option.isSome_iff_exists.1 h
  obtain ⟨hmem, rfl⟩ := mem_of_get? ht
  exact isTypeName_of_mem hmem

/-- The default type is registered. -/
theorem contains_defaultName (r : Registry) : r.contains r.defaultName = true :=
  (firstFlaw?_eq_none_iff.1 r.accepted).2.2

/-- Names are distinct, so the first type of a name is the only one. -/
theorem get?_of_mem {t : RelationType} (h : t ∈ r.types) : r.get? t.name = some t :=
  (findType?_eq_some_iff r.nodup_names).2 ⟨h, rfl⟩

theorem contains_iff_mem_names {name : String} : r.contains name = true ↔ name ∈ r.names := by
  unfold contains names
  rw [get?, isSome_findType?_iff, List.mem_map]

/-- A type that declares an inverse is not symmetric, and its inverse points back. -/
theorem inverse_points_back {t : RelationType} (ht : t ∈ r.types) {inverse : String}
    (h : t.inverse = some inverse) :
    t.isSymmetric = false ∧ ∃ u, r.get? inverse = some u ∧ u.inverse = some t.name :=
  inverseFlaw?_eq_none_iff.1 ((firstFlaw?_eq_none_iff.1 r.accepted).2.1 t ht) inverse h

/-- A type that declares an inverse implies it. -/
theorem implied?_of_inverse {t : RelationType} (ht : t ∈ r.types) {inverse : String}
    (h : t.inverse = some inverse) : r.implied? t.name = some inverse := by
  obtain ⟨hsymmetric, -⟩ := inverse_points_back ht h
  simp [implied?, get?_of_mem ht, RelationType.implied?, hsymmetric, h]

/-- Symmetric types and types that are their own inverse imply themselves. -/
theorem implied?_self {t : RelationType} (ht : t ∈ r.types)
    (h : t.isSymmetric = true ∨ t.inverse = some t.name) : r.implied? t.name = some t.name := by
  rcases h with hsymmetric | hinverse
  · simp [implied?, get?_of_mem ht, RelationType.implied?, hsymmetric]
  · exact implied?_of_inverse ht hinverse

/-- A type that implies something backwards is itself registered, and so is what
it implies; what that implies is the first type again. -/
theorem implied?_symm {a b : String} (h : r.implied? a = some b) : r.implied? b = some a := by
  obtain ⟨t, ht, hb⟩ := Option.bind_eq_some_iff.1 h
  obtain ⟨hmem, rfl⟩ := mem_of_get? ht
  unfold RelationType.implied? at hb
  by_cases hsymmetric : t.isSymmetric = true
  · rw [if_pos hsymmetric] at hb
    obtain rfl := Option.some.inj hb
    exact h
  · rw [if_neg hsymmetric] at hb
    obtain ⟨-, u, hu, hback⟩ := inverse_points_back hmem hb
    obtain ⟨humem, rfl⟩ := mem_of_get? hu
    exact implied?_of_inverse humem hback

theorem contains_of_implied? {a b : String} (h : r.implied? a = some b) :
    r.contains a = true := by
  obtain ⟨t, ht, -⟩ := Option.bind_eq_some_iff.1 h
  exact Option.isSome_iff_exists.2 ⟨t, ht⟩

end Registry

end Thesaurus
