import Thesaurus.Proofs.Session.Names
import Thesaurus.Proofs.Store.Agreement

/-!
# What names lead to on either store

Both stores keep one entry for each name, and both give a written record its name. They
differ over a record that is written again and keeps its name, as every deletion does: the
ordered store enters the name anew, the term graph leaves the entry as it is. That makes a
difference only where the entry led to another record. The ordered store then takes the
name back from a record that claimed it later.

So the stores answer alike for every name until an edit takes a name back, and no longer.
From then on the ordered store may lead a name to a deleted record although a live one has
that name.

## Main definitions

* `Edit.rewritten?`: the record that an edit writes over without changing its name.
* `Edit.TakesBack`: an edit of a record that its own name does not lead to.
* `NamesAlike`: two states on which every name leads to the same record.

## Main results

* `NamesRecords.get?_eq_of_lookup`: an entry can be told from what it leads to.
* `Agree.namesAlike_editRun_iff`: what an edit may do so that the stores still answer alike.
* `names_alike_iff_none_takes_back`: how long the stores answer alike.
-/

namespace Thesaurus

open Store LawfulStore

/-! ## Names that are taken back -/

section Editing

variable {σ : Type} [EditableStore σ]

/-- The record, deleted or live, that a name leads to. -/
def Store.byName (s : σ) (name : String) : Option Term := ((Store.termByName name).answer? s).join

/-- The record that an edit writes over without changing its name. -/
def Edit.rewritten? (x : Edit) (s : σ) : Option Term :=
  match x with
  | .putGlossary _ => none
  | .putTerm t => (record s t.id).filter fun u => u.fullName = t.fullName
  | .deleteTerm id => record s id

/-- An edit of a record that keeps its name while the name leads elsewhere. -/
def Edit.TakesBack (x : Edit) (s : σ) : Prop :=
  ∃ t ∈ x.rewritten? s, byName s t.fullName ≠ some t

instance (x : Edit) (s : σ) : Decidable (x.TakesBack s) :=
  inferInstanceAs (Decidable (∃ t ∈ x.rewritten? s, byName s t.fullName ≠ some t))

/-- Edits of which none takes a name back. -/
def NoneTakesBack : List Edit → σ → Prop
  | [], _ => True
  | x :: rest, s => ¬ x.TakesBack s ∧ NoneTakesBack rest (x.run s)

instance decidableNoneTakesBack : (edits : List Edit) → (s : σ) → Decidable (NoneTakesBack edits s)
  | [], _ => isTrue trivial
  | x :: rest, s =>
      have := decidableNoneTakesBack rest (x.run s)
      inferInstanceAs (Decidable (¬ x.TakesBack s ∧ NoneTakesBack rest (x.run s)))

end Editing

/-- Two states, of whatever stores, on which every name leads to the same record. -/
def NamesAlike {σ τ : Type} [Store σ] [Store τ] (s : σ) (t : τ) : Prop :=
  ∀ name, ((Store.termByName name).run s).1 = ((Store.termByName name).run t).1

/-! ## Entries and what they lead to -/

/-- Records have identities, so the entry of a name can be told from the record it leads
to. -/
theorem NamesRecords.get?_eq_of_lookup {names : Table TermId} {records : TermId → Option Term}
    (h : NamesRecords names records) (hid : ∀ id t, records id = some t → t.id = id)
    (name : String) :
    names.get? name = ((names.get? name).bind records).map (·.id) := by
  cases hget : names.get? name with
  | none => rfl
  | some id =>
      obtain ⟨t, ht, -⟩ := h name id hget
      rw [Option.bind_some, ht, Option.map_some, hid id t ht]

/-- What an edit does to the entries of the term graph. -/
theorem TermGraph.names_editRun_of_rewritten? {g : TermGraph} {x : Edit} {t : Term}
    (h : x.rewritten? g = some t) : (x.run g).names = g.names := by
  cases x with
  | putGlossary glossary => rfl
  | putTerm u =>
      obtain ⟨hrecord, hname⟩ := Option.filter_eq_some_iff.1 h
      have hsame : t.fullName = u.fullName := by simpa using hname
      rw [record_eq] at hrecord
      show (g.addTerm u).names = g.names
      rw [names_addTerm, hrecord]
      exact if_pos hsame
  | deleteTerm id => exact names_deleteTerm id g

/-- A record that is written again claims its name on the ordered store. -/
theorem OrderedStore.names_putTerm_of_same {s : OrderedStore} {t u : Term}
    (hu : s.term? t.id = some u) (hname : u.fullName = t.fullName) :
    (s.putTerm t).names = s.names.insert t.fullName t.id := by
  unfold putTerm
  simp only [hu, hname, if_true]

/-- What an edit does to the entries of the ordered store. -/
theorem OrderedStore.names_editRun_of_rewritten? {s : OrderedStore} {x : Edit} {t : Term}
    (hfiled : s.Filed) (hx : x.isStorable = true) (h : x.rewritten? s = some t) :
    (x.run s).names = s.names.insert t.fullName t.id := by
  cases x with
  | putGlossary glossary => cases h
  | putTerm u =>
      obtain ⟨hrecord, hname⟩ := Option.filter_eq_some_iff.1 h
      have hsame : t.fullName = u.fullName := by simpa using hname
      rw [record_eq] at hrecord
      show ((storeTerm u).run s).2.names = _
      rw [storeTerm_run, if_pos (by exact hx), hsame, (hfiled.id_of_term? hrecord).1]
      exact names_putTerm_of_same hrecord hsame
  | deleteTerm id =>
      have hrecord : s.term? id = some t := h
      have hown : s.term? t.asDeleted.id = some t := by
        show s.term? t.id = some t
        rw [(hfiled.id_of_term? hrecord).1, hrecord]
      show ((deleteTerm id).run s).2.names = _
      rw [deleteTerm_run_of_filed hfiled, hrecord]
      exact names_putTerm_of_same hown rfl

namespace Agree

variable {g : TermGraph} {s : OrderedStore} {x : Edit}

theorem rewritten?_eq (h : Agree g s) (x : Edit) : x.rewritten? s = x.rewritten? g := by
  have hrecord : ∀ id, record s id = record g id := fun id => (h.terms id).symm
  cases x with
  | putGlossary glossary => rfl
  | putTerm t => rw [Edit.rewritten?, Edit.rewritten?, hrecord]
  | deleteTerm id => rw [Edit.rewritten?, Edit.rewritten?, hrecord]

/-- A record that is new, or changes its name, is entered alike by both stores. -/
theorem get?_names_of_not_rewritten (h : Agree g s) (hx : x.isStorable = true)
    (hnames : ∀ name, g.names.get? name = s.names.get? name) (hnone : x.rewritten? g = none)
    (name : String) : (x.run s).names.get? name = (x.run g).names.get? name := by
  cases x with
  | putGlossary glossary => exact (hnames name).symm
  | putTerm t =>
      show ((OrderedStore.storeTerm t).run s).2.names.get? name = (g.addTerm t).names.get? name
      rw [OrderedStore.storeTerm_run, if_pos (by exact hx), TermGraph.names_addTerm]
      unfold OrderedStore.putTerm
      rw [← h.terms]
      cases hprevious : g.term? t.id with
      | none => simp only [Table.get?_insert, hnames]
      | some previous =>
          have hchanged : previous.fullName ≠ t.fullName := by
            rw [Edit.rewritten?, TermGraph.record_eq, hprevious] at hnone
            simpa using hnone
          simp only [if_neg hchanged, Table.get?_insert, Table.get?_erase, hnames]
  | deleteTerm id =>
      have hterm : s.term? id = none := (h.terms id).symm.trans hnone
      show ((OrderedStore.deleteTerm id).run s).2.names.get? name = _
      rw [OrderedStore.deleteTerm_run_of_filed h.filed, hterm]
      show s.names.get? name = ((TermGraph.deleteTerm id).run g).2.names.get? name
      rw [TermGraph.names_deleteTerm, hnames]

/-- States that agree lead names to the same records exactly if their entries are the
same. -/
theorem namesAlike_iff (h : Agree g s) (hg : Built g) (hs : Built s) :
    NamesAlike g s ↔ ∀ name, g.names.get? name = s.names.get? name := by
  have hlookup : ∀ name, ((Store.termByName name).run g).1 = .ok (g.termByName? name) ∧
      ((Store.termByName name).run s).1 = .ok (s.termByName? name) := fun _ => ⟨rfl, rfl⟩
  have hterms : g.term? = s.term? := funext h.terms
  constructor
  · intro halike name
    have hsame := halike name
    rw [(hlookup name).1, (hlookup name).2] at hsame
    have hentry := (TermGraph.namesRecords_of_built hg).get?_eq_of_lookup
      (fun _ _ => TermGraph.id_of_term?) name
    have hentry' := (OrderedStore.namesRecords_of_built hs).get?_eq_of_lookup
      (fun _ _ ht => (h.filed.id_of_term? ht).1) name
    rw [hentry, hentry']
    exact congrArg (Option.map (·.id)) (Except.ok.inj hsame)
  · intro hnames name
    rw [(hlookup name).1, (hlookup name).2, TermGraph.termByName?, OrderedStore.termByName?,
      hnames, hterms]

/-! ## One edit -/

/-- The entry of a record's name leads to that record exactly if the name does. -/
theorem get?_names_eq_iff (hg : Built g) {t : Term} (ht : g.term? t.id = some t) :
    g.names.get? t.fullName = some t.id ↔ byName g t.fullName = some t := by
  have hlookup : byName g t.fullName = (g.names.get? t.fullName).bind g.term? := rfl
  rw [hlookup]
  constructor
  · intro hentry
    rw [hentry, Option.bind_some, ht]
  · intro hfound
    rw [(TermGraph.namesRecords_of_built hg).get?_eq_of_lookup
      (fun _ _ => TermGraph.id_of_term?), hfound]
    rfl

theorem term?_of_rewritten? {t : Term} (h : x.rewritten? g = some t) :
    g.term? t.id = some t := by
  cases x with
  | putGlossary glossary => cases h
  | putTerm u =>
      have hrecord : g.term? u.id = some t := (Option.filter_eq_some_iff.1 h).1
      rwa [TermGraph.id_of_term? hrecord]
  | deleteTerm id =>
      have hrecord : g.term? id = some t := h
      rwa [TermGraph.id_of_term? hrecord]

/-- Where names lead to the same records, they still do after an edit exactly if it takes
no name back. -/
theorem namesAlike_editRun_iff (h : Agree g s) (hg : Built g) (hs : Built s)
    (halike : NamesAlike g s) (hx : x.isStorable = true) :
    NamesAlike (x.run g) (x.run s) ↔ ¬ x.TakesBack g := by
  have hnames := (h.namesAlike_iff hg hs).1 halike
  rw [(h.edit hx).namesAlike_iff (.write (.edit x) hg) (.write (.edit x) hs), Edit.TakesBack]
  cases hrewritten : x.rewritten? g with
  | none =>
      have hsame := h.get?_names_of_not_rewritten hx hnames hrewritten
      simp [hsame]
  | some t =>
      have hgraph := TermGraph.names_editRun_of_rewritten? hrewritten
      have hordered := OrderedStore.names_editRun_of_rewritten? h.filed hx
        ((h.rewritten?_eq x).trans hrewritten)
      have hentry := get?_names_eq_iff hg (term?_of_rewritten? hrewritten)
      rw [hgraph, hordered]
      simp only [Table.get?_insert, ← hnames]
      constructor
      · rintro hsame ⟨u, hu, hother⟩
        obtain rfl := Option.some.inj hu
        have hown := hsame t.fullName
        rw [if_pos rfl] at hown
        exact hother (hentry.1 hown)
      · intro hkept name
        have hfound : byName g t.fullName = some t := by
          by_contra hother
          exact hkept ⟨t, rfl, hother⟩
        split
        · next hname => rw [hname, hentry.2 hfound]
        · rfl

/-! ## A run of edits -/

theorem namesAlike_throughout_iff (edits : List Edit) :
    ∀ {g : TermGraph} {s : OrderedStore}, Agree g s → Built g → Built s → NamesAlike g s →
      (∀ x ∈ edits, x.isStorable = true) →
        ((∀ before, before <+: edits → NamesAlike (runEdits before g) (runEdits before s)) ↔
          NoneTakesBack edits g) := by
  induction edits with
  | nil =>
      intro g s _ _ _ halike _
      refine iff_of_true (fun before hbefore => ?_) trivial
      rw [List.prefix_nil.1 hbefore]
      exact halike
  | cons x rest ih =>
      intro g s h hg hs halike hedits
      have hx := hedits x List.mem_cons_self
      have hstep := h.namesAlike_editRun_iff hg hs halike hx
      have hrest : NamesAlike (x.run g) (x.run s) →
          ((∀ before, before <+: rest →
            NamesAlike (runEdits before (x.run g)) (runEdits before (x.run s))) ↔
              NoneTakesBack rest (x.run g)) := fun hnext =>
        ih (h.edit hx) (.write (.edit x) hg) (.write (.edit x) hs) hnext
          fun y hy => hedits y (List.mem_cons_of_mem x hy)
      constructor
      · intro hall
        have hnext : NamesAlike (x.run g) (x.run s) := hall [x] ⟨rest, rfl⟩
        refine ⟨hstep.1 hnext, (hrest hnext).1 fun before hbefore => ?_⟩
        exact hall (x :: before) (List.cons_prefix_cons.2 ⟨rfl, hbefore⟩)
      · rintro ⟨hkept, hnone⟩ before hbefore
        cases before with
        | nil => exact halike
        | cons y others =>
            obtain ⟨rfl, hothers⟩ := List.cons_prefix_cons.1 hbefore
            have hnext := hstep.2 hkept
            exact (hrest hnext).2 hnone others hothers

end Agree

/-- However terms are written and deleted, under identities that may be stored: names lead
to the same records on both stores all along exactly if no edit takes a name back. -/
theorem names_alike_iff_none_takes_back (edits : List Edit)
    (hedits : ∀ x ∈ edits, x.isStorable = true) :
    (∀ before, before <+: edits →
      NamesAlike (runEdits before (EditableStore.empty : TermGraph))
        (runEdits before (EditableStore.empty : OrderedStore))) ↔
      NoneTakesBack edits (EditableStore.empty : TermGraph) :=
  Agree.namesAlike_throughout_iff edits Agree.empty .empty .empty (fun _ => rfl) hedits

/-- Two terms that share a name. Whichever has claimed it last is written again, deleted
and renamed. -/
def shareInTurn : List Edit :=
  let glossary : Glossary := { id := ⟨"art"⟩, name := "Art" }
  [.putTerm (.topLevel ⟨"cubism"⟩ glossary "Cubism"),
    .putTerm (.topLevel ⟨"painting"⟩ glossary "Cubism"),
    .putTerm { Term.topLevel ⟨"painting"⟩ glossary "Cubism" with synonyms := ["Cubist art"] },
    .deleteTerm ⟨"painting"⟩, .putTerm (.topLevel ⟨"painting"⟩ glossary "Painting"),
    .putTerm (.topLevel ⟨"cubism"⟩ glossary "Painting"), .deleteTerm ⟨"cubism"⟩]

/-- Sharing a name makes no difference by itself. -/
theorem names_alike_while_shared :
    (∀ x ∈ shareInTurn, x.isStorable = true) ∧
      NamesAlike (runEdits shareInTurn (EditableStore.empty : TermGraph))
        (runEdits shareInTurn (EditableStore.empty : OrderedStore)) := by
  have hstorable : ∀ x ∈ shareInTurn, x.isStorable = true := by decide +kernel
  have hnone : NoneTakesBack shareInTurn (EditableStore.empty : TermGraph) := by decide +kernel
  exact ⟨hstorable,
    (names_alike_iff_none_takes_back shareInTurn hstorable).2 hnone _ (List.prefix_refl _)⟩

/-- Two terms of one name, of which the first is deleted. -/
def deleteFirstOfTwo : List Edit :=
  let glossary : Glossary := { id := ⟨"art"⟩, name := "Art" }
  [.putTerm (.topLevel ⟨"cubism"⟩ glossary "Cubism"),
    .putTerm (.topLevel ⟨"painting"⟩ glossary "Cubism"), .deleteTerm ⟨"cubism"⟩]

/-- The name leads to the live term on the term graph, and on the ordered store to the one
that was deleted. -/
theorem name_taken_back_by_deleted_term :
    let glossary : Glossary := { id := ⟨"art"⟩, name := "Art" }
    let cubism : Term := .topLevel ⟨"cubism"⟩ glossary "Cubism"
    let painting : Term := .topLevel ⟨"painting"⟩ glossary "Cubism"
    let g : TermGraph := runEdits deleteFirstOfTwo EditableStore.empty
    let s : OrderedStore := runEdits deleteFirstOfTwo EditableStore.empty
    (∀ x ∈ deleteFirstOfTwo, x.isStorable = true) ∧
      (Store.termByName "Art.Cubism").run g = (.ok (some painting), g) ∧
      (Store.termByName "Art.Cubism").run s = (.ok (some cubism.asDeleted), s) ∧
      ¬ NamesAlike g s := by
  intro glossary cubism painting g s
  have hgraph : TermGraph.termByName? g "Art.Cubism" = some painting := by decide +kernel
  have hordered : OrderedStore.termByName? s "Art.Cubism" = some cubism.asDeleted := by
    decide +kernel
  refine ⟨by decide +kernel, ?_, ?_, fun halike => ?_⟩
  · show (Except.ok (TermGraph.termByName? g "Art.Cubism"), g) = _
    rw [hgraph]
  · show (Except.ok (OrderedStore.termByName? s "Art.Cubism"), s) = _
    rw [hordered]
  · have hsame : TermGraph.termByName? g "Art.Cubism" = OrderedStore.termByName? s "Art.Cubism" :=
      Except.ok.inj (halike "Art.Cubism")
    rw [hgraph, hordered] at hsame
    exact absurd hsame (by decide)

end Thesaurus
