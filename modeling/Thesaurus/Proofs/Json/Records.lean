import Mathlib.Data.List.Nodup
import Thesaurus.Json.Records
import Thesaurus.Proofs.Computation

/-!
# Records read back

A record that is written with all the fields that its decoder declares, in their order,
is read back by storing one after the other, from whatever record the decoder starts:
every field is known, none comes twice, and none is missed. What there is to check of a
record is therefore each field by itself, and that the last store ends in the record that
was written.

## Main definitions

* `Stored`: fields that are stored one after the other.

## Main results

* `decode_record`: records whose fields are stored are read.
* `decode_list`: lists of what is read back.
* `RelationType.decode_toJson`: relation types are read back.
-/

namespace Thesaurus.Json

/-! ## Values -/

theorem decode_optionalString (source : Source) (text : Option String) :
    (Decoder.optional .string).decode source (Value.optionalString text).toTree = .ok text := by
  cases text <;> rfl

/-- A list is read back if each of its items is. -/
theorem decode_list {α : Type} {d : Decoder α} {toJson : α → Value} {source inner : Source}
    (henter : source.enter = .ok inner) (items : List α)
    (h : ∀ a ∈ items, d.decode inner (toJson a).toTree = .ok a) :
    (Decoder.list d).decode source (Value.array (items.map toJson)).toTree = .ok items := by
  have hitems : Decoder.items d inner (toTrees (items.map toJson)) = .ok items := by
    clear henter
    induction items with
    | nil => rfl
    | cons a rest ih =>
        have hrest := ih fun b hb => h b (by simp [hb])
        rw [List.map_cons, toTrees, Decoder.items, h a (by simp), hrest]
        rfl
  exact bind_eq_ok_iff.2 ⟨inner, henter, bind_eq_ok_iff.2 ⟨items, hitems, rfl⟩⟩

/-! ## Records -/

section Records

variable {ρ : Type} {source inner : Source} {fields all : List (Field ρ)}
  {values : List (String × Value)} {r r' : ρ}

theorem Field.read_of {α : Type} {name : String} {absence : Absence} {d : Decoder α}
    {store : α → ρ → ρ} {t : Tree} {a : α} (h : d.decode source t = .ok a) :
    (Field.of name absence d store).read source t = .ok (store a) := by
  show (d.decode source t).map store = _
  rw [h]
  rfl

/-- Fields with their values that are stored one after the other lead from one record to
another. -/
inductive Stored (source : Source) : List (Field ρ) → List (String × Value) → ρ → ρ → Prop
  | nil (r : ρ) : Stored source [] [] r r
  | cons {field : Field ρ} {fields : List (Field ρ)} {v : Value}
      {values : List (String × Value)} {store : ρ → ρ} {r r' : ρ}
      (hread : field.read source v.toTree = .ok store)
      (hrest : Stored source fields values (store r) r') :
      Stored source (field :: fields) ((field.name, v) :: values) r r'

theorem find?_of_nodup {field : Field ρ} (hnames : (all.map (·.name)).Nodup) (h : field ∈ all) :
    all.find? (·.name == field.name) = some field := by
  induction all with
  | nil => exact absurd h List.not_mem_nil
  | cons f others ih =>
      obtain ⟨hf, hothers⟩ := List.nodup_cons.1 hnames
      rcases List.mem_cons.1 h with rfl | hmem
      · simp
      · have hne : f.name ≠ field.name := fun heq =>
          hf (List.mem_map.2 ⟨field, hmem, heq.symm⟩)
        rw [List.find?_cons_of_neg (by simpa using hne), ih hothers hmem]

/-- Stored fields are read in their order. -/
theorem storeFields_of_stored (hnames : (all.map (·.name)).Nodup)
    (h : Stored source fields values r r') :
    (∀ f ∈ fields, f ∈ all) → (fields.map (·.name)).Nodup →
      ∀ seen : List String, (∀ f ∈ fields, f.name ∉ seen) →
        Decoder.storeFields all source (toFields values) seen r =
          .ok ((fields.map (·.name)).reverse ++ seen, r') := by
  induction h with
  | nil r => intro _ _ seen _; rfl
  | @cons field fields v values store r r' hread hrest ih =>
      intro hall hdistinct seen hseen
      obtain ⟨hfield, hothers⟩ := List.nodup_cons.1 hdistinct
      have hnew : seen.contains field.name = false := by
        simpa using hseen field (by simp)
      have hmore := ih (fun f hf => hall f (by simp [hf])) hothers (field.name :: seen) (by
        intro f hf hmem
        rcases List.mem_cons.1 hmem with heq | hmem
        · exact hfield (List.mem_map.2 ⟨f, hf, heq⟩)
        · exact hseen f (by simp [hf]) hmem)
      rw [toFields, Decoder.storeFields, find?_of_nodup hnames (hall field (by simp))]
      simp only [hnew, Bool.false_eq_true, if_false]
      rw [hread]
      show Decoder.storeFields all source (toFields values) (field.name :: seen) (store r) = _
      rw [hmore]
      simp

/-- A record whose fields are all stored is read. -/
theorem decode_record {name : String} (hnames : (fields.map (·.name)).Nodup)
    (henter : source.enter = .ok inner) (h : Stored inner fields values r r') :
    (Decoder.record name fields r).decode source (Value.object values).toTree = .ok r' := by
  have hstored := storeFields_of_stored hnames h (fun _ hf => hf) hnames [] fun _ _ => by simp
  have hnone : Decoder.missing? fields ((fields.map (·.name)).reverse ++ []) = none := by
    rw [Decoder.missing?, Option.map_eq_none_iff, List.find?_eq_none]
    intro f hf
    have hseen : ((fields.map Field.name).reverse ++ []).contains f.name = true := by
      rw [List.append_nil, List.contains_iff_mem, List.mem_reverse]
      exact List.mem_map_of_mem hf
    rw [hseen]
    simp
  refine bind_eq_ok_iff.2 ⟨inner, henter, bind_eq_ok_iff.2 ⟨_, hstored, ?_⟩⟩
  refine bind_eq_ok_iff.2 ⟨(), rfl, ?_⟩
  simp only [hnone]
  rfl

end Records

end Thesaurus.Json

namespace Thesaurus

open Json

/-! ## Relation types -/

theorem Category.decode_name (source : Source) (c : Category) :
    (Decoder.choice Category.byName).decode source (Value.string c.name).toTree = .ok c := by
  cases c <;> rfl

/-- A relation type is read back. -/
theorem RelationType.decode_toJson {source inner : Source} (henter : source.enter = .ok inner)
    (t : RelationType) : RelationType.decoder.decode source t.toJson.toTree = .ok t := by
  refine decode_record (by decide) henter ?_
  exact .cons (Field.read_of rfl) <| .cons (Field.read_of rfl) <|
    .cons (Field.read_of (decode_optionalString _ _)) <|
    .cons (Field.read_of (Category.decode_name _ _)) <| .cons (Field.read_of rfl) <|
    .cons (Field.read_of rfl) <| .cons (Field.read_of (decode_optionalString _ _)) <|
    .cons (Field.read_of rfl) <| .cons (Field.read_of rfl) <| .cons (Field.read_of rfl) <|
    .cons (Field.read_of (decode_optionalString _ _)) <| .nil _

end Thesaurus
