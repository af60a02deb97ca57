import Thesaurus.Proofs.Session.Terms
import Thesaurus.Proofs.Sheet.Cell
import Thesaurus.Proofs.Sheet.Document
import Thesaurus.Proofs.Sheet.Import

/-!
# Relations restored from a sheet

The sheet of a glossary can be imported into a store that has the same terms and no
relations. Every row passes, and the relations of the glossary are there again:
names survive cell and sheet, they lead to the terms that they led to, and what was
accepted once is accepted again.

## Main definitions

* `SheetNames`: names that survive cells and tell terms apart.
* `SheetRestores`: an import that passes and leaves what was exported.

## Main results

* `Relations.mem_rowEdges_iff`: the edges that an exported row asks for.
* `Relations.rowProblem?_eq_none`: nothing is wrong with an exported row.
* `Relations.not_sheetRestores`: a relation is not restored without the name of its term.
* `sheet_restores_relations`: a sheet restores the relations of a glossary.
-/

namespace Thesaurus

open Store LawfulStore Message

/-- Names that survive cells and tell terms apart. -/
structure SheetNames {σ : Type} [Store σ] (registry : Registry) (s : σ) : Prop where
  distinct : DistinctNames s
  nonempty : ∀ id t, record s id = some t → t.fullName ≠ ""
  trimmed : ∀ id t, record s id = some t → Text.trimmed t.fullName = t.fullName
  undelimited : ∀ id t, record s id = some t → Cell.delimiter ∉ t.fullName.toList
  /-- No name begins like an entry that says its type. -/
  untyped : ∀ id t, record s id = some t → ∀ type, registry.contains type = true →
    ¬ type.toList ++ [Cell.typeMark] <+: t.fullName.toList

/-- The sheet of a glossary in one store, imported into another one: every row
passes, and there are the edges that lead from a live term of the glossary to a live
term, and what these edges imply. -/
def SheetRestores {σ τ : Type} [EditableStore σ] [EditableStore τ] (r : Relations) (s : σ) (t : τ)
    (id : GlossaryId) : Prop :=
  ∃ sheet report t', (r.sheetOf id).run s = (.ok sheet, s) ∧
    (r.importRows (rowsOfSheet sheet)).run t = (report, t') ∧
    report.failed = 0 ∧ report.passed = (rowsOfSheet sheet).length ∧
    ∀ f, f ∈ links t' ↔ ∃ e ∈ links s, (f = e ∨ e.inverse? r.registry = some f) ∧
      (∃ source, liveRecord s e.source = some source ∧ source.glossary = id) ∧
      (liveRecord s e.target).isSome = true

/-- A sheet can be imported from one store into the other: relations are whole and
keep to glossaries in the one, names lead to terms in the other, and both have the
same terms. -/
structure Transferable {σ τ : Type} [EditableStore σ] [LawfulStore σ] [EditableStore τ]
    [LawfulStore τ] (registry : Registry) (s : σ) (t : τ) : Prop where
  sound : Sound s
  paired : Paired registry (links s)
  policy : GlossaryPolicy registry s
  names : SheetNames registry s
  record_eq : ∀ id, record t id = record s id
  indexed : Indexed t

variable {σ τ : Type} [EditableStore σ] [LawfulStore σ] [EditableStore τ] [LawfulStore τ]
  {registry : Registry} {s : σ} {t : τ}

namespace Transferable

theorem liveRecord_eq (h : Transferable registry s t) (id : TermId) :
    liveRecord t id = liveRecord s id := by
  rw [liveRecord, h.record_eq, liveRecord]

/-- A live term is found by its name. -/
theorem named_eq (h : Transferable registry s t) {id : TermId} {u : Term}
    (hu : liveRecord s id = some u) : named t u.fullName = some u := by
  obtain ⟨hrecord, hlive⟩ := liveRecord_eq_some_iff.1 hu
  rw [named, h.indexed id u (by rw [h.record_eq, hrecord])]
  exact Term.live?_eq_some_iff.2 ⟨rfl, hlive⟩

/-- What was accepted once is accepted again. -/
theorem addable (h : Transferable registry s t) {e : Edge} {source target : Term}
    (he : e ∈ links s) (hsource : liveRecord s e.source = some source)
    (htarget : liveRecord s e.target = some target) : Addable registry t e := by
  obtain ⟨type, htype⟩ := Option.isSome_iff_exists.1 (h.paired.registered e he)
  refine ⟨h.paired.ends e he, type, source, target, htype, ?_, ?_, ?_⟩
  · rw [h.liveRecord_eq, hsource]
  · rw [h.liveRecord_eq, htarget]
  · cases hcrosses : type.crossesGlossaries with
    | true => exact .inl rfl
    | false =>
        obtain ⟨u, v, hu, hv, hsame⟩ := h.policy e he type htype hcrosses
        rw [(liveRecord_eq_some_iff.1 hsource).1] at hu
        rw [(liveRecord_eq_some_iff.1 htarget).1] at hv
        rw [Option.some.inj hu, Option.some.inj hv]
        exact .inr hsame

/-! ## Cells -/

/-- Every entry of an exported cell is read as it is written. -/
theorem legible_of_mem_cellEntries (h : Transferable registry s t) {id : TermId}
    (hid : Known s id) {entry : CellEntry} (hentry : entry ∈ Relations.cellEntries s id) :
    Cell.Legible registry entry := by
  obtain ⟨e, he, -, u, hu, rfl⟩ := (Relations.mem_cellEntries_iff h.sound hid).1 hentry
  have hrecord := (liveRecord_eq_some_iff.1 hu).1
  have htrimmed := h.names.trimmed _ u hrecord
  refine
    { registered := h.paired.registered e he
      undelimited := h.names.undelimited _ u hrecord
      trimmed := ?_
      bare := fun _ => ⟨?_, ?_⟩ }
  · rw [Text.trimmed] at htrimmed
    have hlist := congrArg String.toList htrimmed
    rwa [String.toList_ofList] at hlist
  · intro hempty
    exact h.names.nonempty _ u hrecord (String.toList_injective hempty)
  · intro front back hcut
    obtain ⟨happend, -⟩ := Text.eq_append_of_cutFirst hcut
    by_contra hcontains
    rw [Bool.not_eq_false] at hcontains
    refine h.names.untyped _ u hrecord _ hcontains ⟨back, ?_⟩
    rw [String.toList_ofList, happend, List.append_assoc, List.singleton_append]

theorem decode_cell (h : Transferable registry s t) {id : TermId} (hid : Known s id) :
    Cell.decode registry (Cell.encode registry (Relations.cellEntries s id)) =
      Relations.cellEntries s id :=
  Cell.decode_encode fun _ hentry => legible_of_mem_cellEntries h hid hentry

end Transferable

/-! ## Rows -/

namespace Relations

variable (r : Relations) {member : Term} {row : Row}

/-- The row that a line of a sheet is read as. -/
structure IsRowOf (s : σ) (member : Term) (row : Row) : Prop where
  source_eq : row.source = member.fullName
  cell_eq : row.cell = Cell.encode r.registry (cellEntries s member.id)

/-- What an entry of an exported cell asks for is the edge that it was made of. -/
theorem entryEdge?_eq (h : Transferable r.registry s t) {e : Edge} {u : Term}
    (hu : liveRecord s e.target = some u) :
    entryEdge? t e.source { type := e.type, target := u.fullName } = some e := by
  rw [entryEdge?, h.named_eq hu, Option.map_some, id_of_liveRecord h.sound hu]

/-- The row of a term asks for its edges to live terms. -/
theorem mem_rowEdges_iff (h : Transferable r.registry s t)
    (hmember : liveRecord s member.id = some member) (hrow : r.IsRowOf s member row) {f : Edge} :
    f ∈ r.rowEdges t row ↔
      f ∈ links s ∧ f.source = member.id ∧ (liveRecord s f.target).isSome = true := by
  have hknown := known_of_liveRecord hmember
  unfold rowEdges
  rw [hrow.source_eq, h.named_eq hmember, hrow.cell_eq]
  simp only
  rw [h.decode_cell hknown, List.mem_filterMap]
  constructor
  · rintro ⟨entry, hentry, hedge⟩
    obtain ⟨e, he, hsource, u, hu, rfl⟩ := (mem_cellEntries_iff h.sound hknown).1 hentry
    rw [← hsource, r.entryEdge?_eq h hu] at hedge
    obtain rfl := Option.some.inj hedge
    exact ⟨he, hsource, Option.isSome_iff_exists.2 ⟨u, hu⟩⟩
  · rintro ⟨hf, hsource, htarget⟩
    obtain ⟨u, hu⟩ := Option.isSome_iff_exists.1 htarget
    refine ⟨{ type := f.type, target := u.fullName }, ?_, ?_⟩
    · exact (mem_cellEntries_iff h.sound hknown).2 ⟨f, hf, hsource, u, hu, rfl⟩
    · rw [← hsource, r.entryEdge?_eq h hu]

/-- Nothing is wrong with the row of a term. -/
theorem rowProblem?_eq_none (h : Transferable r.registry s t)
    (hmember : liveRecord s member.id = some member) (hrow : r.IsRowOf s member row) :
    r.rowProblem? t row = none := by
  have hknown := known_of_liveRecord hmember
  rw [← Option.not_isSome_iff_eq_none, r.rowProblem?_isSome_iff, hrow.source_eq,
    h.named_eq hmember, hrow.cell_eq, h.decode_cell hknown]
  rintro (hnone | ⟨source, hsource, entry, hentry, hrejects⟩)
  · cases hnone
  · obtain rfl := Option.some.inj hsource
    obtain ⟨e, he, hown, u, hu, rfl⟩ := (mem_cellEntries_iff h.sound hknown).1 hentry
    rcases hrejects with hunknown | ⟨target, htarget, error, hrefused⟩
    · rw [h.named_eq hu] at hunknown
      cases hunknown
    · rw [h.named_eq hu] at htarget
      obtain rfl := Option.some.inj htarget
      rw [← hown] at hmember
      obtain ⟨type, hverdict, -⟩ := r.verdict_of_addable (h.addable he hmember hu)
      rw [r.validate_run, ← hown, id_of_liveRecord h.sound hu, hverdict] at hrefused
      cases hrefused

/-! ## Sheets -/

section Sheets

variable {id : GlossaryId}

/-- The row of a line. -/
theorem isRowOf_of_line (h : Transferable r.registry s t)
    (hmember : liveRecord s member.id = some member) (index : Nat) :
    r.IsRowOf s member
      { number := index + 1
        source := Text.trimmed member.fullName
        cell := Cell.encode r.registry (cellEntries s member.id) } where
  source_eq := h.names.trimmed _ member (liveRecord_eq_some_iff.1 hmember).1
  cell_eq := rfl

/-- Every row of a sheet is the row of a member. -/
theorem exists_member_of_mem_rows (h : Transferable r.registry s t)
    (hmembers : ∀ u ∈ membersOf s id, liveRecord s u.id = some u)
    (hrow : row ∈ rowsOfSheet (sheetText (r.sheetLines s id))) :
    ∃ u ∈ membersOf s id, r.IsRowOf s u row := by
  rw [rowsOfSheet_sheetText, List.mem_mapIdx] at hrow
  obtain ⟨index, hindex, rfl⟩ := hrow
  obtain ⟨u, hu, hline⟩ := List.mem_map.1 (List.getElem_mem hindex)
  rw [← hline]
  exact ⟨u, hu, r.isRowOf_of_line h (hmembers u hu) index⟩

/-- Every member has a row. -/
theorem exists_row_of_mem_members (h : Transferable r.registry s t)
    (hmembers : ∀ u ∈ membersOf s id, liveRecord s u.id = some u) (hu : member ∈ membersOf s id) :
    ∃ row ∈ rowsOfSheet (sheetText (r.sheetLines s id)), r.IsRowOf s member row := by
  have hline : (member.fullName, Cell.encode r.registry (cellEntries s member.id)) ∈
      r.sheetLines s id := List.mem_map_of_mem hu
  obtain ⟨index, hindex, hget⟩ := List.getElem_of_mem hline
  refine ⟨_, ?_, r.isRowOf_of_line h (hmembers member hu) index⟩
  rw [rowsOfSheet_sheetText, List.mem_mapIdx]
  exact ⟨index, hindex, by rw [hget]⟩

/-- An edge of the plans of some edges is one of them or implied by one. -/
theorem mem_plans_iff {edges : List Edge} {f : Edge} :
    f ∈ r.plans edges ↔ ∃ e ∈ edges, f = e ∨ e.inverse? r.registry = some f := by
  rw [plans, List.mem_toFinset, List.mem_flatMap]
  simp only [Edge.mem_plan]

/-- The rows of a sheet bring in the edges of the glossary between live terms. -/
theorem mem_passedEdges_iff (h : Transferable r.registry s t)
    (hmembers : ∀ u, u ∈ membersOf s id ↔ liveRecord s u.id = some u ∧ u.glossary = id)
    {e : Edge} :
    e ∈ (rowsOfSheet (sheetText (r.sheetLines s id))).flatMap (r.passedEdges t) ↔
      e ∈ links s ∧ (∃ source, liveRecord s e.source = some source ∧ source.glossary = id) ∧
        (liveRecord s e.target).isSome = true := by
  have hlive : ∀ u ∈ membersOf s id, liveRecord s u.id = some u :=
    fun u hu => ((hmembers u).1 hu).1
  have hpassed : ∀ u row, liveRecord s u.id = some u → r.IsRowOf s u row →
      r.passedEdges t row = r.rowEdges t row := by
    intro u row hu hrow
    exact passedEdges_of_none (r.rowProblem?_eq_none h hu hrow)
  rw [List.mem_flatMap]
  constructor
  · rintro ⟨row, hrow, he⟩
    obtain ⟨u, hu, hisRow⟩ := r.exists_member_of_mem_rows h hlive hrow
    obtain ⟨hrecord, hglossary⟩ := (hmembers u).1 hu
    rw [hpassed u row hrecord hisRow] at he
    obtain ⟨hlinks, hsource, htarget⟩ := (r.mem_rowEdges_iff h hrecord hisRow).1 he
    exact ⟨hlinks, ⟨u, hsource ▸ hrecord, hglossary⟩, htarget⟩
  · rintro ⟨hlinks, ⟨u, hsource, hglossary⟩, htarget⟩
    have hid := id_of_liveRecord h.sound hsource
    have hrecord : liveRecord s u.id = some u := hid ▸ hsource
    obtain ⟨row, hrow, hisRow⟩ :=
      r.exists_row_of_mem_members h hlive ((hmembers u).2 ⟨hrecord, hglossary⟩)
    refine ⟨row, hrow, ?_⟩
    rw [hpassed u row hrecord hisRow]
    exact (r.mem_rowEdges_iff h hrecord hisRow).2 ⟨hlinks, hid.symm, htarget⟩

theorem sheetRestores [GrowingStore τ] (h : Transferable r.registry s t) (ht : Sound t)
    (hempty : links t = ∅)
    (hmembers : ∀ u, u ∈ membersOf s id ↔ liveRecord s u.id = some u ∧ u.glossary = id) :
    SheetRestores r s t id := by
  have hlive : ∀ u ∈ membersOf s id, liveRecord s u.id = some u :=
    fun u hu => ((hmembers u).1 hu).1
  let rows := rowsOfSheet (sheetText (r.sheetLines s id))
  have hnone : ∀ row ∈ rows, r.rowProblem? t row = none := by
    intro row hrow
    obtain ⟨u, hu, hisRow⟩ := r.exists_member_of_mem_rows h hlive hrow
    exact r.rowProblem?_eq_none h (hlive u hu) hisRow
  obtain ⟨t', hrun, hgrown⟩ := r.importRows_run ht rows
  have hfailed : (r.reportOf t rows).failed = 0 := by
    refine List.countP_eq_zero.2 fun row hrow => ?_
    rw [hnone row hrow]
    exact Bool.false_ne_true
  have hpassed : (r.reportOf t rows).passed = rows.length := by
    rw [← r.passed_add_failed t rows, hfailed, Nat.add_zero]
  refine ⟨_, _, t', r.sheetOf_run id hlive, hrun, hfailed, hpassed, ?_⟩
  intro f
  rw [hgrown.links_eq, hempty, Finset.empty_union, mem_plans_iff]
  constructor
  · rintro ⟨e, he, hplan⟩
    obtain ⟨hlinks, hends⟩ := (r.mem_passedEdges_iff h hmembers).1 he
    exact ⟨e, hlinks, hplan, hends⟩
  · rintro ⟨e, hlinks, hplan, hends⟩
    exact ⟨e, (r.mem_passedEdges_iff h hmembers).2 ⟨hlinks, hends⟩, hplan⟩

/-! ### Lost names -/

omit [LawfulStore τ] in
/-- What a row asks for begins and ends at terms that names lead to. -/
theorem named_ends_of_mem_passedEdges {e : Edge} (he : e ∈ r.passedEdges t row) :
    (∃ name u, named t name = some u ∧ u.id = e.source) ∧
      ∃ name u, named t name = some u ∧ u.id = e.target := by
  have hrow : e ∈ r.rowEdges t row := by
    unfold passedEdges at he
    split at he
    · exact absurd he List.not_mem_nil
    · exact he
  unfold rowEdges at hrow
  cases hsource : named t row.source with
  | none =>
      rw [hsource] at hrow
      exact absurd hrow List.not_mem_nil
  | some source =>
      rw [hsource] at hrow
      obtain ⟨entry, -, hentry⟩ := List.mem_filterMap.1 hrow
      obtain ⟨target, htarget, rfl⟩ := Option.map_eq_some_iff.1 hentry
      exact ⟨⟨row.source, source, hsource, rfl⟩, ⟨entry.target, target, htarget, rfl⟩⟩

omit [LawfulStore σ] in
/-- A relation is not restored where no name leads to the term that it leaves. -/
theorem not_sheetRestores [GrowingStore τ] (ht : Sound t) (hempty : links t = ∅) {e : Edge}
    {source : Term} (he : e ∈ links s) (hsource : liveRecord s e.source = some source)
    (htarget : (liveRecord s e.target).isSome = true)
    (hlost : ∀ name u, named t name = some u → u.id ≠ e.source) :
    ¬ SheetRestores r s t source.glossary := by
  rintro ⟨sheet, report, t', -, hrun, -, -, hlinks⟩
  have hrestored : e ∈ links t' :=
    (hlinks e).2 ⟨e, he, .inl rfl, ⟨source, hsource, rfl⟩, htarget⟩
  obtain ⟨_, himport, hgrown⟩ := r.importRows_run ht (rowsOfSheet sheet)
  obtain ⟨-, rfl⟩ := Prod.mk.inj (hrun.symm.trans himport)
  rw [hgrown.links_eq, hempty, Finset.empty_union, mem_plans_iff] at hrestored
  obtain ⟨f, hf, hplan⟩ := hrestored
  obtain ⟨row, -, hpassed⟩ := List.mem_flatMap.1 hf
  obtain ⟨⟨_, u, hu, hfrom⟩, ⟨_, v, hv, hto⟩⟩ := r.named_ends_of_mem_passedEdges hpassed
  rcases hplan with rfl | hinverse
  · exact hlost _ u hu hfrom
  · obtain ⟨-, hturned, -⟩ := Edge.inverse?_eq_some_iff.1 hinverse
    exact hlost _ v hv (hto.trans hturned.symm)

end Sheets

end Relations

/-! ## What there is to check -/

namespace OrderedStore

variable {s : OrderedStore}

/-- What there is to check of the names in an ordered store. -/
theorem sheetNames_of_values {registry : Registry} (hs : s.Filed)
    (hdistinct : (s.terms.values.map (·.fullName)).Nodup)
    (hfit : ∀ t ∈ s.terms.values, t.fullName ≠ "" ∧ Text.trimmed t.fullName = t.fullName ∧
      Cell.delimiter ∉ t.fullName.toList ∧ ∀ type ∈ registry.types,
        ¬ type.name.toList ++ [Cell.typeMark] <+: t.fullName.toList) :
    SheetNames registry s := by
  have hvalue : ∀ id t, record s id = some t → t ∈ s.terms.values := by
    intro id t ht
    refine hs.mem_values_iff.2 ?_
    rw [(hs.id_of_term? ht).1]
    exact ht
  refine
    { distinct := distinctNames_of_nodup hs hdistinct
      nonempty := fun id t ht => (hfit t (hvalue id t ht)).1
      trimmed := fun id t ht => (hfit t (hvalue id t ht)).2.1
      undelimited := fun id t ht => (hfit t (hvalue id t ht)).2.2.1
      untyped := ?_ }
  intro id t ht type htype
  obtain ⟨found, hfound⟩ := Option.isSome_iff_exists.1 htype
  obtain ⟨hmem, rfl⟩ := Registry.mem_of_get? hfound
  exact (hfit t (hvalue id t ht)).2.2.2 found hmem

/-- A term that a name leads to stands in the table of names. -/
theorem mem_names_of_named (hs : s.Filed) {name : String} {u : Term}
    (h : named s name = some u) : u.id ∈ s.names.values := by
  have hanswer : ((Store.termByName name).answer? s).join = s.termByName? name := rfl
  rw [named, hanswer] at h
  obtain ⟨found, hfound, hlive⟩ := Option.bind_eq_some_iff.1 h
  obtain ⟨rfl, -⟩ := Term.live?_eq_some_iff.1 hlive
  obtain ⟨id, hname, hterm⟩ := Option.bind_eq_some_iff.1 hfound
  rw [(hs.id_of_term? hterm).1]
  exact List.mem_map_of_mem (Table.mem_entries_iff.2 hname)

end OrderedStore

/-! ## Sessions -/

/-- Where types that imply each other have the same flag: after every session that
leaves terms with relations in their glossaries and that ends with names fit for
sheets, the sheet of every glossary restores its relations in every store, of either
kind, that has the same terms and no relations, if its terms never shared a name. -/
theorem sheet_restores_relations (b c : Backend) (e : Engine) (actions : List Action)
    (hagree : PairsAgree e.registry)
    (hsettled : Settled e actions (EditableStore.empty : b.State))
    (hnames : SheetNames e.registry (runActions e actions (EditableStore.empty : b.State)))
    (t : c.State) (ht : ReachedApart t) (hempty : links t = ∅)
    (hrecords : ∀ id, record t id =
      record (runActions e actions (EditableStore.empty : b.State)) id) (id : GlossaryId) :
    SheetRestores e.relations (runActions e actions (EditableStore.empty : b.State)) t id := by
  have hreached : Reached (runActions e actions (EditableStore.empty : b.State)) :=
    reached_runActions e actions _ .empty
  have hlinks : links (EditableStore.empty : b.State) = ∅ := links_empty
  have hpaired : Paired e.registry (links (EditableStore.empty : b.State)) := by
    rw [hlinks]
    exact .empty e.registry
  have hpolicy : GlossaryPolicy e.registry (EditableStore.empty : b.State) :=
    .of_links_empty e.registry hlinks
  have hhealthy : Healthy (EditableStore.empty : b.State) := healthy_of_reached .empty
  have htransferable : Transferable e.registry
      (runActions e actions (EditableStore.empty : b.State)) t :=
    { sound := (healthy_of_reached hreached).sound
      paired := (paired_of_actions e actions _ hhealthy hpaired).2
      policy := glossaryPolicy_of_settled hagree actions _ hhealthy hpolicy hsettled
      names := hnames
      record_eq := hrecords
      indexed := ht.indexed }
  refine e.relations.sheetRestores htransferable (healthy_of_reached ht.reached).sound hempty
    fun u => ?_
  rw [DirectoryStore.mem_membersOf (built_of_reached hreached), liveRecord_eq_some_iff]
  tauto

/-- A glossary of two terms. -/
def namedTerms : List Edit :=
  let glossary : Glossary := { id := ⟨"art"⟩, name := "Art" }
  [.putGlossary glossary, .putTerm (.topLevel ⟨"cubism"⟩ glossary "Cubism"),
    .putTerm (.topLevel ⟨"painting"⟩ glossary "Painting: \"oil\", other")]

/-- A relation between them. -/
def relateTerms : List RelationRequest := [.add ⟨"cubism"⟩ ⟨"painting"⟩ "broader"]

/-- Names with commas, quotation marks and colons survive. -/
theorem sheet_restores_two_terms :
    let e : Engine := Engine.ofSettings .builtin {}
    let edits : List Action := namedTerms.map .edit
    let actions : List Action := edits ++ relateTerms.map .request
    let s : Backend.State .ordered := runActions e actions EditableStore.empty
    let t : Backend.State .ordered := runActions e edits EditableStore.empty
    PairsAgree e.registry ∧ Settled e actions (EditableStore.empty : Backend.State .ordered) ∧
      SheetNames e.registry s ∧ ReachedApart t ∧ links t = ∅ ∧
      (∀ id, record t id = record s id) ∧ SheetRestores e.relations s t ⟨"art"⟩ := by
  intro e edits actions s t
  have hfiled : ∀ run : List Action,
      OrderedStore.Filed (runActions e run (EditableStore.empty : Backend.State .ordered)) := by
    intro run
    have hrun : Reached (runActions e run (EditableStore.empty : Backend.State .ordered)) :=
      reached_runActions e run _ .empty
    exact (healthy_of_reached hrun).sound
  have hsettled : Settled e actions (EditableStore.empty : Backend.State .ordered) :=
    settled_of_edits e namedTerms relateTerms _ links_empty
  have hnames : SheetNames e.registry s :=
    OrderedStore.sheetNames_of_values (hfiled actions) (by decide +kernel) (by decide +kernel)
  have hnodup : ∀ before ∈ edits.inits,
      ((OrderedStore.terms (runActions e before (EditableStore.empty : Backend.State .ordered))
        ).values.map (·.fullName)).Nodup := by
    decide +kernel
  have hapart : ReachedApart t := by
    refine .run e edits .empty fun before hbefore => ?_
    exact OrderedStore.distinctNames_of_nodup (hfiled before)
      (hnodup before ((List.mem_inits before edits).2 hbefore))
  have hempty : links t = ∅ := by decide +kernel
  have hrecords : ∀ id, record t id = record s id := fun id => rfl
  exact ⟨pairsAgree_builtin, hsettled, hnames, hapart, hempty, hrecords,
    sheet_restores_relations .ordered .ordered e actions pairsAgree_builtin hsettled hnames t
      hapart hempty hrecords ⟨"art"⟩⟩

/-- A glossary of two terms. The second had the name of the first for a while. -/
def renamedTerms : List Edit :=
  let glossary : Glossary := { id := ⟨"art"⟩, name := "Art" }
  [.putGlossary glossary, .putTerm (.topLevel ⟨"cubism"⟩ glossary "Cubism"),
    .putTerm (.topLevel ⟨"painting"⟩ glossary "Cubism"),
    .putTerm (.topLevel ⟨"painting"⟩ glossary "Painting")]

/-- Once two terms have shared a name, what a sheet says of one of them can be lost,
although no two terms have one name any more: the table of names has forgotten it. -/
theorem sheet_not_restored_after_shared_name :
    ¬ ∀ (b c : Backend) (e : Engine) (actions : List Action), PairsAgree e.registry →
      Settled e actions (EditableStore.empty : b.State) →
      SheetNames e.registry (runActions e actions (EditableStore.empty : b.State)) →
      ∀ t : c.State, Reached t → links t = ∅ →
        (∀ id, (Store.glossary id).answer? t =
          (Store.glossary id).answer? (runActions e actions (EditableStore.empty : b.State))) →
        (∀ id, record t id =
          record (runActions e actions (EditableStore.empty : b.State)) id) →
        ∀ id, SheetRestores e.relations
          (runActions e actions (EditableStore.empty : b.State)) t id := by
  intro hrestores
  let e : Engine := Engine.ofSettings .builtin {}
  let s : Backend.State .ordered :=
    runActions e (renamedTerms.map .edit ++ relateTerms.map .request) EditableStore.empty
  let t : Backend.State .ordered := runActions e (renamedTerms.map .edit) EditableStore.empty
  let edge : Edge := { source := ⟨"cubism"⟩, target := ⟨"painting"⟩, type := "broader" }
  have hs : Reached s := reached_runActions e _ _ .empty
  have hfiled : OrderedStore.Filed s := (healthy_of_reached hs).sound
  have ht : Reached t := reached_runActions e _ _ .empty
  have hempty : links t = ∅ := by decide +kernel
  have hnames : SheetNames e.registry s :=
    OrderedStore.sheetNames_of_values hfiled (by decide +kernel) (by decide +kernel)
  have hlost : ∀ name u, named t name = some u → u.id ≠ edge.source := by
    intro name u hu hid
    have hforgotten : edge.source ∉ (OrderedStore.names t).values := by decide +kernel
    exact hforgotten (hid ▸ OrderedStore.mem_names_of_named (healthy_of_reached ht).sound hu)
  have hsource : liveRecord s edge.source =
      some (.topLevel ⟨"cubism"⟩ { id := ⟨"art"⟩, name := "Art" } "Cubism") := rfl
  refine Relations.not_sheetRestores e.relations (healthy_of_reached ht).sound hempty
    (e := edge) (by decide +kernel) hsource (by decide +kernel) hlost ?_
  exact hrestores .ordered .ordered e _ pairsAgree_builtin
    (settled_of_edits e renamedTerms relateTerms _ links_empty) hnames t ht hempty
    (fun id => rfl) (fun id => rfl) _

end Thesaurus
