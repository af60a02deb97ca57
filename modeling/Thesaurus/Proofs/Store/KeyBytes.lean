import Thesaurus.Proofs.Store.EdgeOrder
import Thesaurus.Proofs.Store.Ordered
import Thesaurus.Proofs.Text.Utf8

/-!
# Edge keys as bytes

The ordered store holds its keys as bytes, and scans and orders them as bytes. The
separator is a byte that no character but itself has among its bytes, so what holds of
keys as texts holds of their bytes: they are read back, they begin with the stems of their
source and type, and those of one source stand in the order of types and targets. A
scan for one type therefore lists what a scan for the source lists of that type.

## Main definitions

* `Edge.keyBytes`, `Edge.stemBytes`, `Edge.ofKeyBytes?`: keys, stems and reading, in bytes.
* `Edge.Cuttable`: an edge whose key is cut where it was joined.
* `OrderedStore.scanBytes`: a scan of the bytes of keys.

## Main results

* `Edge.ofKeyBytes?_utf8`: reading the bytes is reading the text.
* `Edge.keyBytes_lt_iff`: the order of the bytes of keys.
* `key_bytes_scanned`: keys as bytes, and scans for one type.
-/

namespace Thesaurus

open Text

namespace Edge

/-- The byte between the parts of a key. -/
def separatorByte : UInt8 := 0x1f

/-- The bytes that the keys of the edges of a source begin with, or of a source and a
type. -/
def stemBytes (source : TermId) (type : Option String) : List UInt8 :=
  utf8 source.text.toList ++ separatorByte ::
    match type with
    | some type => utf8 type.toList ++ [separatorByte]
    | none => []

/-- The bytes of the key of an edge. -/
def keyBytes (e : Edge) : List UInt8 :=
  stemBytes e.source (some e.type) ++ utf8 e.target.text.toList

/-- The edge of the bytes of a key: they are cut twice, and each part must be the bytes of
a text. -/
def ofKeyBytes? (bytes : List UInt8) : Option Edge := do
  let (source, rest) ← cutFirstByte separatorByte bytes
  let (type, target) ← cutFirstByte separatorByte rest
  return { source := ⟨← textOfBytes? source⟩, type := ← textOfBytes? type,
           target := ⟨← textOfBytes? target⟩ }

/-- Neither the source nor the type holds the byte of the separator. The target may. -/
structure Cuttable (e : Edge) : Prop where
  source : separatorByte ∉ utf8 e.source.text.toList
  type : separatorByte ∉ utf8 e.type.toList

variable {e f : Edge} {id : TermId} {key : String}

/-! ## Bytes and characters of keys -/

theorem keySeparator_ascii : keySeparator.toNat < 128 := by decide

theorem utf8_keySeparator (back : List Char) :
    utf8 (keySeparator :: back) = separatorByte :: utf8 back := by
  rw [utf8_cons, utf8EncodeChar_of_lt keySeparator_ascii]
  rfl

theorem separatorByte_mem_iff {cs : List Char} : separatorByte ∈ utf8 cs ↔ keySeparator ∈ cs :=
  mem_utf8_iff keySeparator_ascii

theorem stemBytes_none (source : TermId) : stemBytes source none = utf8 (sourceStem source) := by
  rw [sourceStem, utf8_append, utf8_keySeparator]
  rfl

theorem stemBytes_some (source : TermId) (type : String) :
    stemBytes source (some type) = utf8 (typeStem source type) := by
  rw [typeStem, utf8_append, utf8_append, ← stemBytes_none, utf8_keySeparator]
  simp [stemBytes]

theorem keyBytes_eq (e : Edge) : e.keyBytes = utf8 e.key.toList := by
  rw [keyBytes, stemBytes_some, ← utf8_append, key, String.toList_ofList]

/-- Reading the bytes of a text is reading the text. -/
theorem ofKeyBytes?_utf8 (key : String) : ofKeyBytes? (utf8 key.toList) = ofKey? key := by
  have hcut : ∀ cs, cutFirstByte separatorByte (utf8 cs) =
      (cutFirst keySeparator cs).map fun halves => (utf8 halves.1, utf8 halves.2) :=
    cutFirstByte_utf8 keySeparator_ascii
  unfold ofKeyBytes? ofKey?
  rw [hcut]
  cases cutFirst keySeparator key.toList with
  | none => rfl
  | some halves =>
      obtain ⟨source, rest⟩ := halves
      simp only [Option.map_some, Option.bind_eq_bind, Option.bind_some, hcut]
      cases cutFirst keySeparator rest with
      | none => rfl
      | some halves => simp [textOfBytes?_utf8]

theorem Cuttable.ofKey?_key (h : e.Cuttable) : ofKey? e.key = some e :=
  Edge.ofKey?_key (separatorByte_mem_iff.not.1 h.source) (separatorByte_mem_iff.not.1 h.type)

/-- The edge of a cuttable key is read back, whatever its target is. -/
theorem Cuttable.ofKeyBytes?_keyBytes (h : e.Cuttable) : ofKeyBytes? e.keyBytes = some e := by
  rw [keyBytes_eq, ofKeyBytes?_utf8, h.ofKey?_key]

theorem Cuttable.eq_of_keyBytes_eq (he : e.Cuttable) (hf : f.Cuttable)
    (h : e.keyBytes = f.keyBytes) : e = f := by
  have hread := he.ofKeyBytes?_keyBytes
  rw [h, hf.ofKeyBytes?_keyBytes] at hread
  exact (Option.some.inj hread).symm

theorem Cuttable.sourceBytes_prefix_iff (he : e.Cuttable)
    (hid : separatorByte ∉ utf8 id.text.toList) :
    stemBytes id none <+: e.keyBytes ↔ e.source = id := by
  rw [keyBytes_eq, stemBytes_none, utf8_prefix_iff]
  exact sourceStem_prefix_iff (separatorByte_mem_iff.not.1 hid) he.ofKey?_key

theorem Cuttable.typeBytes_prefix_iff (he : e.Cuttable)
    (hid : separatorByte ∉ utf8 id.text.toList) {type : String}
    (htype : separatorByte ∉ utf8 type.toList) :
    stemBytes id (some type) <+: e.keyBytes ↔ e.source = id ∧ e.type = type := by
  rw [keyBytes_eq, stemBytes_some, utf8_prefix_iff]
  exact typeStem_prefix_iff (separatorByte_mem_iff.not.1 hid) (separatorByte_mem_iff.not.1 htype)
    he.ofKey?_key

/-! ## The order of keys -/

/-- A text before another whose characters come after the separator stays before it when
both are joined to others by the separator. -/
theorem joined_lt_of_front_lt (back back' : List Char) :
    ∀ front front' : List Char, (∀ c ∈ front', keySeparator < c) → front < front' →
      front ++ keySeparator :: back < front' ++ keySeparator :: back'
  | _, [], _, h => absurd h (List.not_lt_nil _)
  | [], c' :: _, hfront', _ =>
      List.cons_lt_cons_iff.2 (.inl (hfront' c' List.mem_cons_self))
  | c :: front, c' :: front', hfront', h => by
      rcases List.cons_lt_cons_iff.1 h with hlt | ⟨heq, htail⟩
      · exact List.cons_lt_cons_iff.2 (.inl hlt)
      · have hrest := joined_lt_of_front_lt back back' front front'
          (fun d hd => hfront' d (List.mem_cons_of_mem _ hd)) htail
        exact List.cons_lt_cons_iff.2 (.inr ⟨heq, hrest⟩)

/-- Keys of one source stand in the order of types and targets. -/
theorem key_lt_iff (hsource : e.source = f.source) (he : isTypeName e.type = true)
    (hf : isTypeName f.type = true) : e.key < f.key ↔ e.Precedes f := by
  constructor
  · intro h
    refine precedes_of_leByType hsource ?_ (leByType_of_key_lt hsource he hf h)
    rintro rfl
    exact String.lt_irrefl _ h
  · intro h
    rw [String.lt_iff, toList_key, toList_key, hsource]
    refine List.append_left_lt (List.cons_lt_cons_iff.2 (.inr ⟨rfl, ?_⟩))
    rcases h with htype | ⟨htype, htarget⟩
    · exact joined_lt_of_front_lt _ _ _ _ (keySeparator_lt_of_isTypeName hf)
        (String.lt_iff.1 htype)
    · rw [htype]
      exact List.append_left_lt (List.cons_lt_cons_iff.2 (.inr ⟨rfl, String.lt_iff.1 htarget⟩))

/-- Bytes of keys are ordered as keys are. -/
theorem keyBytes_lt_iff : e.keyBytes < f.keyBytes ↔ e.key < f.key := by
  rw [keyBytes_eq, keyBytes_eq, utf8_lt_iff, String.lt_iff]

/-- The keys of edges of one source and one type stand in the order of targets, whatever
the type is. -/
theorem precedes_of_key_lt (hsource : e.source = f.source) (htype : e.type = f.type)
    (h : e.key < f.key) : e.Precedes f := by
  rw [String.lt_iff, key, key, String.toList_ofList, String.toList_ofList, hsource, htype] at h
  exact .inr ⟨htype, String.lt_iff.2 (lt_of_append_lt_append _ h)⟩

end Edge

/-! ## Scans -/

namespace OrderedStore

open Edge

variable {s : OrderedStore} {id : TermId}

/-- The bytes of all stored keys, in the order of the store. -/
def storedKeyBytes (s : OrderedStore) : List (List UInt8) :=
  s.edgeKeys.keys.map fun key => utf8 key.toList

/-- The edges of the keys whose bytes begin with a stem. -/
def scanBytes (s : OrderedStore) (stem : List UInt8) : List Edge :=
  (s.storedKeyBytes.filter fun key => stem.isPrefixOf key).filterMap ofKeyBytes?

/-- The order of the store is the order of bytes. -/
theorem pairwise_storedKeyBytes (s : OrderedStore) : s.storedKeyBytes.Pairwise (· < ·) := by
  have hkeys : s.edgeKeys.keys.Pairwise (· < ·) := List.pairwise_map.2 s.edgeKeys.increasing
  exact List.pairwise_map.2 (hkeys.imp fun h => utf8_lt (String.lt_iff.1 h))

/-- A scan of bytes is a scan of texts. -/
theorem scanBytes_utf8 (s : OrderedStore) (stem : List Char) :
    s.scanBytes (utf8 stem) = s.scan stem := by
  have hprefix : ∀ key : String, (utf8 stem).isPrefixOf (utf8 key.toList) =
      stem.isPrefixOf key.toList := by
    intro key
    rw [Bool.eq_iff_iff, List.isPrefixOf_iff_prefix, List.isPrefixOf_iff_prefix, utf8_prefix_iff]
  unfold scanBytes storedKeyBytes scan
  rw [List.filter_map, List.filterMap_map]
  simp only [Function.comp_def, hprefix, ofKeyBytes?_utf8]

/-- A scan for a source and a type finds the edges of that type that a scan for the source
finds, in the same order. -/
theorem filter_scan_typeStem (hid : keySeparator ∉ id.text.toList) (only : String) :
    (s.scan (typeStem id only)).filter (·.type = only) =
      (s.scan (sourceStem id)).filter (·.type = only) := by
  unfold scan
  rw [List.filter_filterMap, List.filter_filterMap, List.filterMap_filter, List.filterMap_filter]
  refine List.filterMap_congr fun key _ => ?_
  cases hread : ofKey? key with
  | none => simp
  | some e =>
      by_cases htype : e.type = only
      · have honly : keySeparator ∉ only.toList := htype ▸ (toList_of_ofKey? hread).2.2
        have hstems : typeStem id only <+: key.toList ↔ sourceStem id <+: key.toList := by
          rw [typeStem_prefix_iff hid honly hread, sourceStem_prefix_iff hid hread]
          exact and_iff_left htype
        simp only [List.isPrefixOf_iff_prefix, hstems]
      · have hother : Option.filter (fun e : Edge => decide (e.type = only)) (some e) = none := by
          simp [Option.filter, htype]
        rw [hother, ite_self, ite_self]

theorem edgesFrom_singleton (s : OrderedStore) (id : TermId) (only : String) :
    s.edgesFrom id [only] =
      (s.scanBytes (stemBytes id (some only))).filter (·.type = only) := by
  rw [stemBytes_some, scanBytes_utf8]
  refine List.filter_congr fun e _ => ?_
  simp [TypeFilter.accepts]

end OrderedStore

/-- The bytes of the key of an edge whose source and type do not hold the separator are read
back as that edge, so no two such edges share a key. The stem of a source begins the bytes
of the keys of its edges, the stem of a source and a type those of the edges that have both,
and no others. The keys of one source stand in the order of types and targets if the types
are type names. Whatever is stored, asking a term for the edges of one type therefore lists
what a scan for all its edges lists of that type, by type and target. -/
theorem key_bytes_scanned :
    (∀ e : Edge, e.Cuttable → Edge.ofKeyBytes? e.keyBytes = some e) ∧
    (∀ e f : Edge, e.Cuttable → f.Cuttable → e.keyBytes = f.keyBytes → e = f) ∧
    (∀ e : Edge, e.Cuttable → ∀ id : TermId, Edge.separatorByte ∉ utf8 id.text.toList →
      (Edge.stemBytes id none <+: e.keyBytes ↔ e.source = id) ∧
      ∀ type : String, Edge.separatorByte ∉ utf8 type.toList →
        (Edge.stemBytes id (some type) <+: e.keyBytes ↔ e.source = id ∧ e.type = type)) ∧
    (∀ e f : Edge, e.source = f.source → isTypeName e.type = true → isTypeName f.type = true →
      (e.keyBytes < f.keyBytes ↔ e.Precedes f)) ∧
    ∀ (s : OrderedStore) (id : TermId) (only : String),
      Edge.separatorByte ∉ utf8 id.text.toList →
        ∃ found, (Store.edgesFrom id [only]).run s = (.ok found, s) ∧
          found = (s.scanBytes (Edge.stemBytes id (some only))).filter (·.type = only) ∧
          found = (s.scanBytes (Edge.stemBytes id none)).filter (·.type = only) ∧
          s.storedKeyBytes.Pairwise (· < ·) ∧ found.Pairwise Edge.Precedes := by
  refine ⟨fun e he => he.ofKeyBytes?_keyBytes, fun e f he hf => he.eq_of_keyBytes_eq hf,
    fun e he id hid => ⟨he.sourceBytes_prefix_iff hid, fun type => he.typeBytes_prefix_iff hid⟩,
    fun e f hsource he hf => ?_, fun s id only hid => ?_⟩
  · rw [Edge.keyBytes_lt_iff, Edge.key_lt_iff hsource he hf]
  · have hfree := Edge.separatorByte_mem_iff.not.1 hid
    have hfast := s.edgesFrom_singleton id only
    refine ⟨s.edgesFrom id [only], rfl, hfast, ?_, s.pairwise_storedKeyBytes, ?_⟩
    · rw [hfast, Edge.stemBytes_some, Edge.stemBytes_none, OrderedStore.scanBytes_utf8,
        OrderedStore.scanBytes_utf8, OrderedStore.filter_scan_typeStem hfree]
    · -- Sources and types agree among those found, so their keys are ordered by target.
      refine (s.pairwise_key_edgesFrom id [only]).imp_of_mem fun {e f} he hf hlt => ?_
      obtain ⟨-, hsource, htype⟩ := (OrderedStore.mem_edgesFrom hfree).1 he
      obtain ⟨-, hsource', htype'⟩ := (OrderedStore.mem_edgesFrom hfree).1 hf
      have honly : e.type = only := by simpa [TypeFilter.accepts] using htype
      have honly' : f.type = only := by simpa [TypeFilter.accepts] using htype'
      exact Edge.precedes_of_key_lt (hsource.trans hsource'.symm) (honly.trans honly'.symm) hlt

/-- A target that holds the separator is read back whole. A type comes before one that it is
the beginning of, and the edges of either are found without those of the other. -/
theorem see_scanned_apart_from_seeAlso :
    let see : Edge := { source := ⟨"cubism"⟩, target := ⟨"a\x1fb"⟩, type := "see" }
    let seeAlso : Edge := { source := ⟨"cubism"⟩, target := ⟨"a"⟩, type := "seeAlso" }
    let s : OrderedStore := (OrderedStore.empty.insertEdge seeAlso).2.insertEdge see |>.2
    see.Cuttable ∧ seeAlso.Cuttable ∧ Edge.ofKeyBytes? see.keyBytes = some see ∧
      see.keyBytes ≠ seeAlso.keyBytes ∧ see.keyBytes < seeAlso.keyBytes ∧
      Edge.stemBytes ⟨"cubism"⟩ none <+: see.keyBytes ∧
      ¬ Edge.stemBytes ⟨"cubism"⟩ (some "see") <+: seeAlso.keyBytes ∧
      ∃ found, (Store.edgesFrom ⟨"cubism"⟩ ["see"]).run s = (.ok found, s) ∧
        found = (s.scanBytes (Edge.stemBytes ⟨"cubism"⟩ none)).filter (·.type = "see") := by
  intro see seeAlso s
  obtain ⟨hread, hinjective, hstems, horder, hscan⟩ := key_bytes_scanned
  have hsee : see.Cuttable := ⟨by decide, by decide⟩
  have hseeAlso : seeAlso.Cuttable := ⟨by decide, by decide⟩
  have hid : Edge.separatorByte ∉ utf8 (⟨"cubism"⟩ : TermId).text.toList := by decide
  obtain ⟨found, hrun, -, hfound, -⟩ := hscan s ⟨"cubism"⟩ "see" hid
  refine ⟨hsee, hseeAlso, hread see hsee, fun heq => ?_, ?_, ?_, fun hstem => ?_, found, hrun,
    hfound⟩
  · exact absurd (hinjective see seeAlso hsee hseeAlso heq) (by decide)
  · exact (horder see seeAlso rfl (by decide) (by decide)).2 (by decide)
  · exact ((hstems see hsee ⟨"cubism"⟩ hid).1).2 rfl
  · exact absurd (((hstems seeAlso hseeAlso ⟨"cubism"⟩ hid).2 "see" (by decide)).1 hstem).2
      (by decide)

end Thesaurus
