import Mathlib.Data.List.Nodup
import Thesaurus.Proofs.Registry.Acceptance
import Thesaurus.Store.Ordered
import Thesaurus.Table

/-!
# Edge keys, read back and told apart

A key holds the separator at least twice, and just twice when the edge is plain.
Any edge whose key is that of a plain edge is that edge, so looking up an edge
with separators in odd places cannot hit the key of another one. The keys that
begin with a stem are those of the source, or of the source and the type, that
the stem names.

## Main results

* `isSome_ofKey?_iff`: what a key must hold to be read.
* `eq_of_key_eq_key`: no edge has the key of another plain edge.
* `sourceStem_prefix_iff`, `typeStem_prefix_iff`: what a scan finds.
-/

namespace Thesaurus

/-- A type name has no room for the separator. -/
theorem keySeparator_notMem_of_isTypeName {name : String} (h : isTypeName name = true) :
    keySeparator ∉ name.toList := by
  intro hmem
  exact absurd (isAlphanum_of_isTypeName h _ hmem) (by decide)

theorem TermId.isStorable_iff {id : TermId} :
    id.isStorable = true ↔ keySeparator ∉ id.text.toList := by
  simp [isStorable]

theorem TermId.ext_text {a b : TermId} (h : a.text.toList = b.text.toList) : a = b := by
  obtain ⟨a⟩ := a
  obtain ⟨b⟩ := b
  exact congrArg TermId.mk (String.toList_injective h)

namespace Edge

variable {e f : Edge} {key : String}

/-- An edge whose parts hold no separator. -/
structure Plain (e : Edge) : Prop where
  source : keySeparator ∉ e.source.text.toList
  target : keySeparator ∉ e.target.text.toList
  type : keySeparator ∉ e.type.toList

theorem toList_key (e : Edge) : e.key.toList =
    e.source.text.toList ++ keySeparator :: (e.type.toList ++ keySeparator ::
      e.target.text.toList) := by
  simp [Edge.key, typeStem, sourceStem]

/-! ## Reading keys -/

/-- What is read from a key spells the key. -/
theorem toList_of_ofKey? (h : ofKey? key = some e) :
    key.toList = e.source.text.toList ++ keySeparator :: (e.type.toList ++ keySeparator ::
      e.target.text.toList) ∧ keySeparator ∉ e.source.text.toList ∧
        keySeparator ∉ e.type.toList := by
  unfold ofKey? at h
  obtain ⟨⟨source, rest⟩, hsource, h⟩ := Option.bind_eq_some_iff.1 h
  obtain ⟨⟨type, target⟩, htype, h⟩ := Option.bind_eq_some_iff.1 h
  obtain ⟨hkey, hsourceFree⟩ := Text.eq_append_of_cutFirst hsource
  obtain ⟨hrest, htypeFree⟩ := Text.eq_append_of_cutFirst htype
  obtain rfl := Option.some.inj h
  refine ⟨?_, by simpa using hsourceFree, by simpa using htypeFree⟩
  rw [hkey]
  simp [hrest]

/-- An edge that is read has the key that it is read from. -/
theorem key_of_ofKey? (h : ofKey? key = some e) : e.key = key := by
  apply String.toList_injective
  rw [toList_key, (toList_of_ofKey? h).1]

/-- Two keys that read as one edge are one key. -/
theorem key_eq_of_ofKey? {key' : String} (h : ofKey? key = some e) (h' : ofKey? key' = some e) :
    key = key' :=
  (key_of_ofKey? h).symm.trans (key_of_ofKey? h')

theorem isSome_ofKey?_iff : (ofKey? key).isSome = true ↔ 2 ≤ key.toList.count keySeparator := by
  constructor
  · intro h
    obtain ⟨e, he⟩ := Option.isSome_iff_exists.1 h
    rw [(toList_of_ofKey? he).1]
    simp only [List.count_append, List.count_cons_self]
    omega
  · intro h
    have hfirst : keySeparator ∈ key.toList := List.count_pos_iff.1 (by omega)
    obtain ⟨⟨source, rest⟩, hsource⟩ := Option.ne_none_iff_exists'.1
      (fun hnone => Text.cutFirst_eq_none_iff.1 hnone hfirst)
    obtain ⟨hkey, hfree⟩ := Text.eq_append_of_cutFirst hsource
    have hcount : 1 ≤ rest.count keySeparator := by
      rw [hkey, List.count_append, List.count_cons_self, List.count_eq_zero.2 hfree] at h
      omega
    have hsecond : keySeparator ∈ rest := List.count_pos_iff.1 (by omega)
    obtain ⟨⟨type, target⟩, htype⟩ := Option.ne_none_iff_exists'.1
      (fun hnone => Text.cutFirst_eq_none_iff.1 hnone hsecond)
    simp [ofKey?, hsource, htype]

theorem isSome_ofKey?_key (e : Edge) : (ofKey? e.key).isSome = true := by
  rw [isSome_ofKey?_iff, toList_key]
  simp only [List.count_append, List.count_cons_self]
  omega

theorem Plain.ofKey?_key (h : e.Plain) : ofKey? e.key = some e := Edge.ofKey?_key h.source h.type

/-- The key of a plain edge has two separators, and any other edge with that key
would have to place the same two. -/
theorem eq_of_key_eq_key (hf : f.Plain) (h : e.key = f.key) : e = f := by
  have hcount := congrArg (fun key : String => key.toList.count keySeparator) h
  simp only [toList_key, List.count_append, List.count_cons_self,
    List.count_eq_zero.2 hf.source, List.count_eq_zero.2 hf.type,
    List.count_eq_zero.2 hf.target] at hcount
  have hsource : keySeparator ∉ e.source.text.toList := List.count_eq_zero.1 (by omega)
  have htype : keySeparator ∉ e.type.toList := List.count_eq_zero.1 (by omega)
  have hread := Edge.ofKey?_key hsource htype
  rw [h, hf.ofKey?_key] at hread
  exact (Option.some.inj hread).symm

/-! ## Scanning by stems -/

private theorem front_eq_of_append {front front' back back' : List Char}
    (hfront : keySeparator ∉ front) (hfront' : keySeparator ∉ front')
    (h : front ++ keySeparator :: back = front' ++ keySeparator :: back') :
    front = front' ∧ back = back' := by
  have hcut := Text.cutFirst_append hfront back
  rw [h, Text.cutFirst_append hfront'] at hcut
  obtain ⟨hl, hr⟩ := Prod.mk.inj (Option.some.inj hcut)
  exact ⟨hl.symm, hr.symm⟩

/-- The keys that begin with the stem of a source are the keys of its edges. -/
theorem sourceStem_prefix_iff {id : TermId} (hid : keySeparator ∉ id.text.toList)
    (h : ofKey? key = some e) : sourceStem id <+: key.toList ↔ e.source = id := by
  obtain ⟨hkey, hsource, -⟩ := toList_of_ofKey? h
  rw [hkey, sourceStem]
  constructor
  · rintro ⟨rest, hrest⟩
    rw [List.append_assoc, List.singleton_append] at hrest
    exact TermId.ext_text (front_eq_of_append hid hsource hrest).1.symm
  · rintro rfl
    exact ⟨e.type.toList ++ keySeparator :: e.target.text.toList, by simp⟩

/-- The keys that begin with the stem of a source and a type are the keys of the
edges that have both. -/
theorem typeStem_prefix_iff {id : TermId} {type : String}
    (hid : keySeparator ∉ id.text.toList) (htype : keySeparator ∉ type.toList)
    (h : ofKey? key = some e) :
    typeStem id type <+: key.toList ↔ e.source = id ∧ e.type = type := by
  obtain ⟨hkey, hsource, htypeFree⟩ := toList_of_ofKey? h
  rw [hkey, typeStem, sourceStem]
  constructor
  · rintro ⟨rest, hrest⟩
    simp only [List.append_assoc, List.singleton_append] at hrest
    obtain ⟨hs, hback⟩ := front_eq_of_append hid hsource hrest
    obtain ⟨ht, -⟩ := front_eq_of_append htype htypeFree hback
    exact ⟨TermId.ext_text hs.symm, String.toList_injective ht.symm⟩
  · rintro ⟨rfl, rfl⟩
    exact ⟨e.target.text.toList, by simp⟩

end Edge

/-! ## Keys of tables -/

namespace Table

variable {α : Type} {t : Table α}

theorem mem_keys_iff {key : String} : key ∈ t.keys ↔ t.contains key = true := by
  unfold keys contains
  rw [List.mem_map, Option.isSome_iff_exists]
  constructor
  · rintro ⟨⟨k, a⟩, hmem, rfl⟩
    exact ⟨a, mem_entries_iff.1 hmem⟩
  · rintro ⟨a, ha⟩
    exact ⟨(key, a), mem_entries_iff.2 ha, rfl⟩

theorem mem_keys_insert {key other : String} {a : α} :
    other ∈ (t.insert key a).keys ↔ other = key ∨ other ∈ t.keys := by
  rw [mem_keys_iff, mem_keys_iff, contains, contains, get?_insert]
  by_cases h : other = key
  · simp [h]
  · simp [h]

theorem mem_keys_erase {key other : String} :
    other ∈ (t.erase key).keys ↔ other ≠ key ∧ other ∈ t.keys := by
  rw [mem_keys_iff, mem_keys_iff, contains, contains, get?_erase]
  by_cases h : other = key
  · simp [h]
  · simp [h]

theorem nodup_keys (t : Table α) : t.keys.Nodup := by
  have hlt : t.keys.Pairwise (· < ·) := List.pairwise_map.2 t.increasing
  refine hlt.imp fun h heq => ?_
  rw [heq] at h
  exact String.lt_irrefl _ h

end Table

end Thesaurus
