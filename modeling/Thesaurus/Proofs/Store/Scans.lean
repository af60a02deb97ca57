import Thesaurus.Proofs.Store.Agreement

/-!
# Scans for identities of any kind

Identities are looked at before an edge is stored, but not when the edges of a term are
asked for. A stem that holds no separator but the ones it adds itself finds the edges of
its source. A stem with one more separator may still begin the key of an edge: its
identity then spells the source and the type of that edge, with the separator between,
and the edge is found although it does not leave that identity. Stems with more separators
than a key has find nothing, and a stem for a single type is one of these as soon as the
identity holds one.

## Main definitions

* `TermId.Spells`: an identity that is the source and the type of an edge.
* `Write.TypesNamed`: a write that adds edges of type names only.

## Main results

* `Edge.Plain.sourceStem_prefix_iff`, `Edge.Plain.typeStem_prefix_iff`: which stems begin
  the key of an edge.
* `OrderedStore.PlainKeys.writes`: all edges that such writes store are plain.
* `found_by_scan_iff`: what is found, and when nothing is found that is not meant.
-/

namespace Thesaurus

open Store LawfulStore

/-! ## Stems of any kind -/

/-- The identity is the source and the type of the edge, with the separator between. -/
def TermId.Spells (id : TermId) (e : Edge) : Prop :=
  id.text.toList = e.source.text.toList ++ keySeparator :: e.type.toList

namespace Edge.Plain

variable {e : Edge} {id : TermId}

/-- The source of a plain edge holds no separator, so it spells no edge. -/
theorem source_ne_of_spells (he : e.Plain) {f : Edge} (h : id.Spells f) : e.source ≠ id := by
  rintro rfl
  have hmem : keySeparator ∈ e.source.text.toList := by
    rw [h]
    simp
  exact he.source hmem

/-- The key of a plain edge holds the separator twice. -/
theorem count_key (he : e.Plain) : e.key.toList.count keySeparator = 2 := by
  rw [toList_key]
  simp only [List.count_append, List.count_cons_self, List.count_eq_zero.2 he.source,
    List.count_eq_zero.2 he.type, List.count_eq_zero.2 he.target]

/-- A stem of source and type has two separators of its own, so neither text has room for
another one. -/
theorem typeStem_prefix_iff (he : e.Plain) {type : String} :
    typeStem id type <+: e.key.toList ↔ e.source = id ∧ e.type = type := by
  constructor
  · intro hprefix
    have hcount := hprefix.sublist.count_le keySeparator
    rw [he.count_key, typeStem, sourceStem] at hcount
    simp only [List.count_append, List.count_singleton_self] at hcount
    have hid : keySeparator ∉ id.text.toList := List.count_eq_zero.1 (by omega)
    have htype : keySeparator ∉ type.toList := List.count_eq_zero.1 (by omega)
    exact (Edge.typeStem_prefix_iff hid htype he.ofKey?_key).1 hprefix
  · rintro ⟨rfl, rfl⟩
    exact ⟨e.target.text.toList, by simp [Edge.key]⟩

/-- An identity that holds the separator is cut there into a source and a type. -/
theorem sourceStem_prefix_iff (he : e.Plain) :
    sourceStem id <+: e.key.toList ↔ e.source = id ∨ id.Spells e := by
  constructor
  · intro hprefix
    by_cases hid : keySeparator ∈ id.text.toList
    · obtain ⟨⟨front, back⟩, hcut⟩ := Option.ne_none_iff_exists'.1
        fun hnone => Text.cutFirst_eq_none_iff.1 hnone hid
      obtain ⟨htext, -⟩ := Text.eq_append_of_cutFirst hcut
      have hstem : sourceStem id = typeStem ⟨.ofList front⟩ (.ofList back) := by
        simp [sourceStem, typeStem, htext]
      rw [hstem, he.typeStem_prefix_iff] at hprefix
      obtain ⟨hsource, htype⟩ := hprefix
      refine .inr ?_
      rw [TermId.Spells, htext, hsource, htype, String.toList_ofList, String.toList_ofList]
    · exact .inl ((Edge.sourceStem_prefix_iff hid he.ofKey?_key).1 hprefix)
  · rintro (rfl | hspells)
    · exact (Edge.sourceStem_prefix_iff he.source he.ofKey?_key).2 rfl
    · have hstem : sourceStem id = typeStem e.source e.type := by
        rw [sourceStem, typeStem, sourceStem, hspells]
        simp
      rw [hstem, he.typeStem_prefix_iff]
      exact ⟨rfl, rfl⟩

end Edge.Plain

/-! ## Writes of type names -/

/-- The edges that a write is to add. -/
def Write.added : Write → List Edge
  | .edit _ => []
  | .addEdge e => [e]
  | .removeEdge _ => []
  | .apply ops => ops.filterMap fun
    | .add e => some e
    | .remove _ => none

/-- A write that adds edges of type names only. The identities may be any. -/
def Write.TypesNamed (w : Write) : Prop := ∀ e ∈ w.added, isTypeName e.type = true

instance (w : Write) : Decidable w.TypesNamed :=
  inferInstanceAs (Decidable (∀ e ∈ w.added, isTypeName e.type = true))

theorem Write.mem_added_apply {ops : List EdgeOp} {e : Edge} (h : .add e ∈ ops) :
    e ∈ (Write.apply ops).added :=
  List.mem_filterMap.2 ⟨.add e, h, rfl⟩

namespace OrderedStore

variable {s : OrderedStore} {e : Edge}

/-- An edge that the store accepts is plain if its type is a type name. -/
theorem plain_of_edgeError? (h : s.edgeError? e = none) (htype : isTypeName e.type = true) :
    e.Plain := by
  obtain ⟨⟨hsource, -⟩, htarget, -⟩ := edgeError?_eq_none_iff.1 h
  exact ⟨hsource, htarget, keySeparator_notMem_of_isTypeName htype⟩

namespace PlainKeys

theorem writeRun (h : PlainKeys s) {w : Write} (hw : w.TypesNamed) : PlainKeys (w.run s) := by
  cases w with
  | edit x => exact h.editRun x
  | addEdge e =>
      have htype : isTypeName e.type = true := hw e List.mem_cons_self
      show PlainKeys ((Store.addEdge e).run s).2
      rw [addEdge_run]
      cases herror : s.edgeError? e with
      | some error => exact h
      | none =>
          obtain ⟨-, -, hplain, -⟩ := write_spec h (.add e) fun f hf =>
            EdgeOp.add.inj hf ▸ plain_of_edgeError? herror htype
          exact hplain
  | removeEdge e => exact (write_spec h (.remove e) fun f hf => by cases hf).2.2.1
  | apply ops =>
      show PlainKeys ((Store.apply ops).run s).2
      rw [apply_run]
      cases herror : s.firstError? ops with
      | some error => exact h
      | none =>
          obtain ⟨-, -, hplain, -⟩ := writeAll_spec ops s h fun e he =>
            plain_of_edgeError? (List.findSome?_eq_none_iff.1 herror (.add e) he)
              (hw e (Write.mem_added_apply he))
          exact hplain

theorem writes (ws : List Write) (hws : ∀ w ∈ ws, w.TypesNamed) :
    ∀ s : OrderedStore, PlainKeys s → PlainKeys (runWrites ws s) := by
  induction ws with
  | nil => intro s h; exact h
  | cons w rest ih =>
      intro s h
      exact ih (fun w' hw' => hws w' (List.mem_cons_of_mem w hw')) (w.run s)
        (h.writeRun (hws w List.mem_cons_self))

/-- A stored edge is plain. -/
theorem plain (h : PlainKeys s) (he : e ∈ links s) : e.Plain := by
  obtain ⟨f, hf, hkey⟩ := h e.key ((h.mem_keys_iff e).2 he)
  rwa [Edge.eq_of_key_eq_key hf hkey.symm]

/-- What a scan finds among plain edges, whatever the identity and the filter are. -/
theorem mem_edgesFrom (h : PlainKeys s) {id : TermId} {filter : TypeFilter} :
    e ∈ s.edgesFrom id filter ↔ e ∈ links s ∧ filter.accepts e.type = true ∧
      (e.source = id ∨ filter.length ≠ 1 ∧ id.Spells e) := by
  rw [mem_edgesFrom_iff]
  refine and_congr_right fun he => ?_
  rw [and_comm]
  refine and_congr_right fun haccepts => ?_
  match filter, haccepts with
  | [], _ => simp [stemFor, (h.plain he).sourceStem_prefix_iff]
  | [only], haccepts =>
      -- The filter accepts the type already, so the longer stem asks for the source only.
      have honly : e.type = only := by simpa [TypeFilter.accepts] using haccepts
      simp [stemFor, (h.plain he).typeStem_prefix_iff, honly]
  | _ :: _ :: _, _ => simp [stemFor, (h.plain he).sourceStem_prefix_iff]

end PlainKeys

end OrderedStore

/-! ## What is found -/

/-- However edges of type names are written to the ordered store, asking for the edges of
an identity finds those stored edges of an accepted type that leave it and, unless one type
alone is asked for, those whose source and type it spells. So nothing is found that leaves
another identity exactly if one type alone is asked for, or no stored edge of an accepted
type is spelled; an identity without separator spells none. -/
theorem found_by_scan_iff (ws : List Write) (hws : ∀ w ∈ ws, w.TypesNamed) (id : TermId)
    (filter : TypeFilter) :
    let s : OrderedStore := runWrites ws EditableStore.empty
    ∃ found, (Store.edgesFrom id filter).run s = (.ok found, s) ∧
      (∀ e, e ∈ found ↔ e ∈ links s ∧ filter.accepts e.type = true ∧
        (e.source = id ∨ filter.length ≠ 1 ∧ id.Spells e)) ∧
      ((∀ e ∈ found, e.source = id) ↔
        filter.length = 1 ∨ ∀ e ∈ links s, filter.accepts e.type = true → ¬ id.Spells e) := by
  intro s
  have hplain : OrderedStore.PlainKeys s :=
    OrderedStore.PlainKeys.writes ws hws _ fun key hkey => absurd hkey List.not_mem_nil
  have hfound : ∀ e, e ∈ s.edgesFrom id filter ↔ e ∈ links s ∧ filter.accepts e.type = true ∧
      (e.source = id ∨ filter.length ≠ 1 ∧ id.Spells e) := fun _ => hplain.mem_edgesFrom
  refine ⟨s.edgesFrom id filter, rfl, hfound, ?_⟩
  constructor
  · intro hsources
    by_cases hlength : filter.length = 1
    · exact .inl hlength
    · refine .inr fun e he haccepts hspells => ?_
      have hsource := hsources e ((hfound e).2 ⟨he, haccepts, .inr ⟨hlength, hspells⟩⟩)
      exact (hplain.plain he).source_ne_of_spells hspells hsource
  · intro hnone e he
    obtain ⟨hstored, haccepts, hsource | ⟨hlength, hspells⟩⟩ := (hfound e).1 he
    · exact hsource
    · exact absurd hspells (hnone.resolve_left hlength e hstored haccepts)

/-- Two terms and an edge between them; an edge that an identity with a separator would
have is refused. -/
def relateTwoTerms : List Write :=
  let glossary : Glossary := { id := ⟨"art"⟩, name := "Art" }
  [.edit (.putTerm (.topLevel ⟨"cubism"⟩ glossary "Cubism")),
    .edit (.putTerm (.topLevel ⟨"painting"⟩ glossary "Painting")),
    .addEdge { source := ⟨"cubism"⟩, target := ⟨"painting"⟩, type := "broader" },
    .addEdge { source := ⟨"cubism\x1fbroader"⟩, target := ⟨"painting"⟩, type := "broader" }]

/-- The edge is found from its source. If its type alone is asked for, it is not found from
an identity that spells it. -/
theorem broader_found_from_cubism :
    let broader : Edge := { source := ⟨"cubism"⟩, target := ⟨"painting"⟩, type := "broader" }
    let s : OrderedStore := runWrites relateTwoTerms EditableStore.empty
    (∀ w ∈ relateTwoTerms, w.TypesNamed) ∧
      (∃ found, (Store.edgesFrom ⟨"cubism"⟩ []).run s = (.ok found, s) ∧ broader ∈ found) ∧
      ∃ found, (Store.edgesFrom ⟨"cubism\x1fbroader"⟩ ["broader"]).run s = (.ok found, s) ∧
        ∀ e ∈ found, e.source = ⟨"cubism\x1fbroader"⟩ := by
  intro broader s
  have hnamed : ∀ w ∈ relateTwoTerms, w.TypesNamed := by decide +kernel
  obtain ⟨found, hrun, hfound, -⟩ := found_by_scan_iff relateTwoTerms hnamed ⟨"cubism"⟩ []
  obtain ⟨found', hrun', -, hsources⟩ :=
    found_by_scan_iff relateTwoTerms hnamed ⟨"cubism\x1fbroader"⟩ ["broader"]
  refine ⟨hnamed, ⟨found, hrun, (hfound broader).2 ?_⟩, found', hrun', hsources.2 (.inl rfl)⟩
  exact ⟨by decide +kernel, rfl, .inl rfl⟩

/-- Asked for the edges of an identity that spells the source and the type of an edge, the
store answers with that edge, which leaves another term. -/
theorem found_under_other_source :
    ¬ ∀ ws : List Write, (∀ w ∈ ws, w.TypesNamed) → ∀ id filter,
        let s : OrderedStore := runWrites ws EditableStore.empty
        ∀ found, (Store.edgesFrom id filter).run s = (.ok found, s) →
          ∀ e ∈ found, e.source = id := by
  intro hall
  let broader : Edge := { source := ⟨"cubism"⟩, target := ⟨"painting"⟩, type := "broader" }
  have hsource := hall relateTwoTerms (by decide +kernel) ⟨"cubism\x1fbroader"⟩ [] _ rfl
    broader (by decide +kernel)
  exact absurd hsource (by decide)

end Thesaurus
