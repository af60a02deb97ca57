import Thesaurus.Proofs.Registry.Acceptance
import Thesaurus.Sheet.Import

/-!
# Cells are read as they are written

An entry is read back from a cell if its type is registered and its target holds no
delimiter and no blank at its ends. An entry of the default type stands without its
type, so its target must moreover be there and not begin like an entry of another
type.

No other entry is read back, whatever stands beside it: an entry that is read from a
cell is registered, trimmed and without delimiter in any case, so a list that is read
back consists of such entries. Each of them stands in one piece of the cell, and a
piece is read by itself.

## Main definitions

* `Cell.Legible`: the entries that are read back.

## Main results

* `Cell.decodeEntry_encodeEntry`: one entry.
* `Cell.decode_encode`: a cell.
* `Cell.decode_encode_eq_self_iff`: the lists of entries that are read back.
-/

namespace Thesaurus.Cell

/-- An entry that is read as it is written. -/
structure Legible (registry : Registry) (e : CellEntry) : Prop where
  registered : registry.contains e.type = true
  undelimited : delimiter ∉ e.target.toList
  trimmed : Text.trim e.target.toList = e.target.toList
  /-- What stands without a type is not empty and does not seem to have one. -/
  bare : e.type = registry.defaultName → e.target.toList ≠ [] ∧
    ∀ front back, Text.cutFirst typeMark e.target.toList = some (front, back) →
      registry.contains (.ofList front) = false

/-! ## Entries -/

theorem isAlphanum_eq_false_of_isBlank {c : Char} (h : Text.isBlank c = true) :
    c.isAlphanum = false := by
  rw [Bool.eq_false_iff, Ne, isAlphanum_iff]
  simp only [Text.isBlank, Bool.or_eq_true, Bool.and_eq_true, decide_eq_true_eq,
    beq_iff_eq] at h
  omega

section Entries

variable {registry : Registry} {e : CellEntry}

theorem encodeEntry_of_default (h : e.type = registry.defaultName) :
    encodeEntry registry e = e.target.toList := by
  rw [encodeEntry, if_pos h]

theorem encodeEntry_of_not_default (h : e.type ≠ registry.defaultName) :
    encodeEntry registry e = e.type.toList ++ typeMark :: e.target.toList := by
  rw [encodeEntry, if_neg h]

/-- An entry that says its type is cut after it. -/
theorem knownType?_of_contains {type : String} (h : registry.contains type = true)
    (target : List Char) :
    knownType? registry (type.toList ++ typeMark :: target) = some (type, target) := by
  have halphanum := isAlphanum_of_isTypeName (Registry.isTypeName_of_contains h)
  have hmark : typeMark ∉ type.toList := fun hmem => absurd (halphanum _ hmem) (by decide)
  have hpoint : '.' ∉ type.toList := fun hmem => absurd (halphanum _ hmem) (by decide)
  simp [knownType?, Text.cutFirst_append hmark, hpoint, h]

theorem decodeEntry_encodeEntry (h : Legible registry e) :
    decodeEntry registry (encodeEntry registry e) = e := by
  by_cases hdefault : e.type = registry.defaultName
  · rw [encodeEntry_of_default hdefault]
    have hunknown : knownType? registry e.target.toList = none := by
      unfold knownType?
      cases hcut : Text.cutFirst typeMark e.target.toList with
      | none => rfl
      | some halves =>
          have hbare := (h.bare hdefault).2 halves.1 halves.2 hcut
          simp [hbare]
    rw [decodeEntry, hunknown]
    simp [← hdefault]
  · rw [encodeEntry_of_not_default hdefault, decodeEntry, knownType?_of_contains h.registered]
    simp [h.trimmed]

theorem delimiter_notMem_encodeEntry (hregistered : registry.contains e.type = true)
    (hundelimited : delimiter ∉ e.target.toList) : delimiter ∉ encodeEntry registry e := by
  by_cases hdefault : e.type = registry.defaultName
  · rw [encodeEntry_of_default hdefault]
    exact hundelimited
  · have halphanum := isAlphanum_of_isTypeName (Registry.isTypeName_of_contains hregistered)
    have htype : delimiter ∉ e.type.toList := fun hmem => absurd (halphanum _ hmem) (by decide)
    rw [encodeEntry_of_not_default hdefault, List.mem_append, List.mem_cons]
    rintro (hmem | hmark | hmem)
    · exact htype hmem
    · exact absurd hmark (by decide)
    · exact hundelimited hmem

theorem encodeEntry_ne_nil (h : Legible registry e) : encodeEntry registry e ≠ [] := by
  by_cases hdefault : e.type = registry.defaultName
  · rw [encodeEntry_of_default hdefault]
    exact (h.bare hdefault).1
  · rw [encodeEntry_of_not_default hdefault]
    simp

/-- A type name is not blank anywhere, so trimming leaves an entry alone. -/
theorem trim_encodeEntry (hregistered : registry.contains e.type = true)
    (htrimmed : Text.trim e.target.toList = e.target.toList) :
    Text.trim (encodeEntry registry e) = encodeEntry registry e := by
  by_cases hdefault : e.type = registry.defaultName
  · rw [encodeEntry_of_default hdefault]
    exact htrimmed
  · have hname := Registry.isTypeName_of_contains hregistered
    rw [encodeEntry_of_not_default hdefault, Text.trim_eq_self_iff]
    constructor
    · intro c hc
      rw [List.head?_append_of_ne_nil _ (toList_ne_nil_of_isTypeName hname)] at hc
      have halphanum := isAlphanum_of_isTypeName hname c (List.mem_of_head? hc)
      cases hblank : Text.isBlank c with
      | false => rfl
      | true =>
          rw [isAlphanum_eq_false_of_isBlank hblank] at halphanum
          cases halphanum
    · intro c hc
      rw [List.getLast?_append_of_ne_nil _ (List.cons_ne_nil _ _)] at hc
      cases htarget : e.target.toList with
      | nil =>
          rw [htarget] at hc
          obtain rfl := Option.some.inj hc
          decide
      | cons first rest =>
          rw [htarget, List.getLast?_cons_cons, ← htarget] at hc
          exact (Text.trim_eq_self_iff.1 htrimmed).2 c hc

/-- An entry without blanks at its ends that stands for itself is legible: if it says
its type, or seems to, what is read is shorter than what is written. -/
theorem legible_of_decodeEntry (hregistered : registry.contains e.type = true)
    (hundelimited : delimiter ∉ e.target.toList)
    (htrimmed : Text.trim e.target.toList = e.target.toList)
    (hne : encodeEntry registry e ≠ [])
    (hself : decodeEntry registry (encodeEntry registry e) = e) : Legible registry e := by
  refine ⟨hregistered, hundelimited, htrimmed, fun hdefault => ?_⟩
  rw [encodeEntry_of_default hdefault] at hne hself
  refine ⟨hne, fun front back hcut => ?_⟩
  obtain ⟨htarget, -⟩ := Text.eq_append_of_cutFirst hcut
  by_contra hcontains
  rw [Bool.not_eq_false] at hcontains
  have hfront := knownType?_of_contains hcontains back
  rw [String.toList_ofList, ← htarget] at hfront
  rw [decodeEntry, hfront] at hself
  have hread : Text.trim back = e.target.toList := by
    rw [← congrArg CellEntry.target hself, String.toList_ofList]
  have hshorter := (Text.trim_sublist back).length_le
  rw [hread, htarget, List.length_append, List.length_cons] at hshorter
  omega

end Entries

/-! ## What is read -/

section Reading

variable {registry : Registry} {e : CellEntry} {cell : String} {raw : List Char}

/-- A raw entry is a trimmed piece of the cell. -/
theorem of_mem_rawEntries (h : raw ∈ rawEntries cell) :
    delimiter ∉ raw ∧ Text.trim raw = raw := by
  obtain ⟨hraw, -⟩ := List.mem_filter.1 h
  obtain ⟨piece, hpiece, rfl⟩ := List.mem_map.1 hraw
  have hfree := Text.not_mem_of_mem_pieces hpiece
  exact ⟨fun hmem => hfree ((Text.trim_sublist piece).subset hmem), Text.trim_trim piece⟩

/-- An entry that is read has a registered type, and a target that is trimmed and part
of the raw entry. -/
theorem decodeEntry_canonical (registry : Registry) (htrimmed : Text.trim raw = raw) :
    registry.contains (decodeEntry registry raw).type = true ∧
      Text.trim (decodeEntry registry raw).target.toList =
        (decodeEntry registry raw).target.toList ∧
      (decodeEntry registry raw).target.toList.Sublist raw := by
  unfold decodeEntry knownType?
  cases hcut : Text.cutFirst typeMark raw with
  | none => exact ⟨registry.contains_defaultName, by simpa using htrimmed, by simp⟩
  | some halves =>
      obtain ⟨front, back⟩ := halves
      obtain ⟨hraw, -⟩ := Text.eq_append_of_cutFirst hcut
      by_cases hknown : (!front.contains '.' && registry.contains (.ofList front)) = true
      · have hback : back.Sublist raw := by
          rw [hraw]
          exact (List.sublist_cons_self typeMark back).trans (List.sublist_append_right front _)
        simp only [Option.bind_eq_bind, Option.bind_some, if_pos hknown, String.toList_ofList,
          Text.trim_trim, true_and, Option.pure_def]
        exact ⟨((Bool.and_eq_true _ _).mp hknown).2, (Text.trim_sublist back).trans hback⟩
      · simp only [Option.bind_eq_bind, Option.bind_some, if_neg hknown, String.toList_ofList]
        exact ⟨registry.contains_defaultName, htrimmed, List.Sublist.refl raw⟩

/-- What every entry is like that is read from a cell, whatever stands in it. -/
theorem of_mem_decode (h : e ∈ decode registry cell) :
    registry.contains e.type = true ∧ delimiter ∉ e.target.toList ∧
      Text.trim e.target.toList = e.target.toList := by
  obtain ⟨raw, hraw, rfl⟩ := List.mem_map.1 h
  obtain ⟨hfree, htrimmed⟩ := of_mem_rawEntries hraw
  obtain ⟨hregistered, htarget, hpart⟩ := decodeEntry_canonical registry htrimmed
  exact ⟨hregistered, fun hmem => hfree (hpart.subset hmem), htarget⟩

end Reading

/-! ## Cells -/

/-- Texts that hold no delimiter and no blank at their ends are the raw entries of the
cell that they make up, apart from those with nothing in them. -/
theorem rawEntries_joined {raws : List (List Char)} (hdelimiter : ∀ raw ∈ raws, delimiter ∉ raw)
    (htrim : ∀ raw ∈ raws, Text.trim raw = raw) :
    rawEntries (.ofList (Text.joined delimiter raws)) = raws.filter fun raw => !raw.isEmpty := by
  rw [rawEntries, String.toList_ofList]
  by_cases hraws : raws = []
  · subst hraws
    rfl
  · rw [Text.pieces_joined hraws hdelimiter, List.map_congr_left htrim, List.map_id']

/-- The raw entries of the cell of a list are those of its entries. -/
theorem rawEntries_encode {registry : Registry} {entries : List CellEntry}
    (hregistered : ∀ e ∈ entries, registry.contains e.type = true)
    (hundelimited : ∀ e ∈ entries, delimiter ∉ e.target.toList)
    (htrimmed : ∀ e ∈ entries, Text.trim e.target.toList = e.target.toList) :
    rawEntries (encode registry entries) =
      (entries.map (encodeEntry registry)).filter fun raw => !raw.isEmpty := by
  refine rawEntries_joined ?_ ?_
  · exact List.forall_mem_map.2 fun e he =>
      delimiter_notMem_encodeEntry (hregistered e he) (hundelimited e he)
  · exact List.forall_mem_map.2 fun e he => trim_encodeEntry (hregistered e he) (htrimmed e he)

theorem decode_encode {registry : Registry} {entries : List CellEntry}
    (h : ∀ e ∈ entries, Legible registry e) :
    decode registry (encode registry entries) = entries := by
  have hraws : rawEntries (encode registry entries) = entries.map (encodeEntry registry) := by
    rw [rawEntries_encode (fun e he => (h e he).registered) (fun e he => (h e he).undelimited)
      fun e he => (h e he).trimmed, List.filter_eq_self]
    exact List.forall_mem_map.2 fun e he => by simpa using encodeEntry_ne_nil (h e he)
  rw [decode, hraws, List.map_map]
  refine (List.map_congr_left fun e he => ?_).trans (List.map_id _)
  exact decodeEntry_encodeEntry (h e he)

/-- A list of entries is read back from its cell exactly when all of its entries are
legible. -/
theorem decode_encode_eq_self_iff (registry : Registry) (entries : List CellEntry) :
    decode registry (encode registry entries) = entries ↔
      ∀ e ∈ entries, Legible registry e := by
  refine ⟨fun h => ?_, decode_encode⟩
  have hread : ∀ e ∈ entries, registry.contains e.type = true ∧ delimiter ∉ e.target.toList ∧
      Text.trim e.target.toList = e.target.toList := fun e he => of_mem_decode (h.symm ▸ he)
  rw [decode, rawEntries_encode (fun e he => (hread e he).1) (fun e he => (hread e he).2.1)
    fun e he => (hread e he).2.2] at h
  -- As many raw entries are left as there are entries, so none of them is empty.
  have hlength : ((entries.map (encodeEntry registry)).filter fun raw => !raw.isEmpty).length =
      (entries.map (encodeEntry registry)).length := by
    rw [List.length_map, ← congrArg List.length h, List.length_map]
  have hkept := List.length_filter_eq_length_iff.1 hlength
  have hne : ∀ e ∈ entries, encodeEntry registry e ≠ [] := fun e he => by
    simpa using hkept _ (List.mem_map_of_mem he)
  have hself : ∀ e ∈ entries, decodeEntry registry (encodeEntry registry e) = e := by
    rw [List.filter_eq_self.2 hkept, List.map_map] at h
    exact List.map_inj_left.1 (h.trans (List.map_id entries).symm)
  intro e he
  obtain ⟨hregistered, hundelimited, htrimmed⟩ := hread e he
  exact legible_of_decodeEntry hregistered hundelimited htrimmed (hne e he) (hself e he)

end Thesaurus.Cell
