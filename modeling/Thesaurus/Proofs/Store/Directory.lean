import Thesaurus.Proofs.Store.Backend
import Thesaurus.Proofs.Store.Terms

/-!
# Terms by name and by glossary

A store finds terms by fully qualified name and lists the members of a glossary.
The members are always the live records of the glossary. Names are another matter:
a term that changes its name gives up the former one whoever claimed it last, so a
record may lose its name to the renaming of another that once shared it. As long as
no two records ever share a name, every record is found by its own.

## Main definitions

* `DistinctNames`: no two records have one name.
* `Indexed`: every record is found by its name.
* `DirectoryStore`: the laws.

## Main results

* `TermGraph.indexed_iff`, `OrderedStore.indexed_iff`: what the tables of names hold.
* the instances for both stores.
-/

namespace Thesaurus

open Store LawfulStore

section Directory

variable {σ : Type} [Store σ]

/-- No two records have one fully qualified name. -/
def DistinctNames (s : σ) : Prop :=
  ∀ a b t u, record s a = some t → record s b = some u → t.fullName = u.fullName → a = b

/-- Every record is found by its fully qualified name. -/
def Indexed (s : σ) : Prop :=
  ∀ id t, record s id = some t → (Store.termByName t.fullName).answer? s = some (some t)

/-- The members of a glossary as they are listed. -/
def Store.membersOf (s : σ) (id : GlossaryId) : List Term :=
  ((Store.members id).answer? s).getD []

theorem Indexed.of_sameTerms {s s' : σ} (hterms : SameTerms s s') (h : Indexed s) :
    Indexed s' := by
  intro id t ht
  rw [hterms.record_eq] at ht
  rw [hterms.termByName]
  exact h id t ht

end Directory

/-- What a store guarantees about its terms. -/
class DirectoryStore (σ : Type) [EditableStore σ] [LawfulStore σ] : Prop where
  record_empty (id : TermId) : record (EditableStore.empty : σ) id = none
  /-- An edit is refused, or does what it says. -/
  record_edit {s : σ} (x : Edit) : Sound s →
    x.run s = s ∨ ∀ id, record (x.run s) id = x.onTerms (record s) id
  indexed_edit {s : σ} (x : Edit) : Sound s → Indexed s → DistinctNames s →
    DistinctNames (x.run s) → Indexed (x.run s)
  mem_membersOf {s : σ} {id : GlossaryId} {t : Term} : Built s →
    (t ∈ membersOf s id ↔ record s t.id = some t ∧ t.glossary = id ∧ t.deleted = false)

/-! ## Claiming a name -/

/-- A table that leads from the name of every record to its identity. -/
def LeadsToRecords (names : Table TermId) (records : TermId → Option Term) : Prop :=
  ∀ id t, records id = some t → names.get? t.fullName = some id

/-- A table of names still leads to all records when one of them is written, claims
its name and gives up the one it had, provided that no other record has either. -/
theorem LeadsToRecords.putTerm {names names' : Table TermId} {records : TermId → Option Term}
    {t : Term} (h : LeadsToRecords names records)
    (hdistinct : ∀ a b u v, records a = some u → records b = some v →
      u.fullName = v.fullName → a = b)
    (hfree : ∀ id u, id ≠ t.id → records id = some u → u.fullName ≠ t.fullName)
    (hown : names'.get? t.fullName = some t.id)
    (hother : ∀ name, name ≠ t.fullName → (∀ u, records t.id = some u → u.fullName ≠ name) →
      names'.get? name = names.get? name) :
    LeadsToRecords names' ((Edit.putTerm t).onTerms records) := by
  intro id u hu
  rw [Edit.onTerms] at hu
  by_cases hid : id = t.id
  · rw [if_pos hid] at hu
    obtain rfl := Option.some.inj hu
    rw [hown, hid]
  · rw [if_neg hid] at hu
    rw [hother u.fullName (hfree id u hid hu)]
    · exact h id u hu
    · intro previous hprevious hsame
      exact hid (hdistinct id t.id u previous hu hprevious hsame.symm)

theorem LeadsToRecords.deleteTerm {names : Table TermId} {records : TermId → Option Term}
    (h : LeadsToRecords names records) (deleted : TermId) :
    LeadsToRecords names ((Edit.deleteTerm deleted).onTerms records) := by
  intro id u hu
  rw [Edit.onTerms] at hu
  by_cases hid : id = deleted
  · rw [if_pos hid] at hu
    obtain ⟨t, ht, rfl⟩ := Option.map_eq_some_iff.1 hu
    exact h id t ht
  · rw [if_neg hid] at hu
    exact h id u hu

/-! ## The term graph -/

namespace TermGraph

variable {g : TermGraph}

theorem indexed_iff : Indexed g ↔ LeadsToRecords g.names g.term? := by
  have hanswer : ∀ name, (Store.termByName name).answer? g = some (g.termByName? name) :=
    fun _ => rfl
  constructor
  · intro h id t ht
    have hfound := h id t ht
    rw [hanswer] at hfound
    obtain ⟨other, hother, hterm⟩ := Option.bind_eq_some_iff.1 (Option.some.inj hfound)
    rw [hother, ← id_of_term? hterm, id_of_term? ht]
  · intro h id t ht
    rw [hanswer, termByName?, h id t ht]
    exact congrArg some ht

/-- A term that is added claims its name, if it did not have it before. -/
theorem names_addTerm (g : TermGraph) (t : Term) :
    (g.addTerm t).names =
      match g.term? t.id with
      | none => g.names.insert t.fullName t.id
      | some previous =>
        if previous.fullName = t.fullName then g.names
        else (g.names.erase previous.fullName).insert t.fullName t.id := by
  unfold addTerm
  cases g.term? t.id with
  | none => rfl
  | some previous =>
      by_cases hname : previous.fullName = t.fullName
      · simp only [if_pos hname]
        split <;> rfl
      · simp only [if_neg hname]
        split <;> rfl

theorem names_deleteTerm (id : TermId) (g : TermGraph) :
    ((deleteTerm id).run g).2.names = g.names := by
  rw [deleteTerm_run]
  split <;> rfl

theorem indexed_putTerm {t : Term} (h : Indexed g) (hdistinct : DistinctNames g)
    (hdistinct' : DistinctNames (g.addTerm t)) : Indexed (g.addTerm t) := by
  have hrecords : (g.addTerm t).term? = (Edit.putTerm t).onTerms g.term? :=
    funext (term?_addTerm g t)
  rw [indexed_iff] at h ⊢
  rw [hrecords]
  refine h.putTerm hdistinct ?_ ?_ ?_
  · intro id u hid hu hsame
    refine hid (hdistinct' id t.id u t ?_ ?_ hsame)
    · rw [record_eq, term?_addTerm, if_neg hid, hu]
    · rw [record_eq, term?_addTerm, if_pos rfl]
  · rw [names_addTerm]
    cases hprevious : g.term? t.id with
    | none => simp [Table.get?_insert]
    | some previous =>
        by_cases hname : previous.fullName = t.fullName
        · simp only [if_pos hname]
          rw [← hname]
          exact h t.id previous hprevious
        · simp [if_neg hname, Table.get?_insert]
  · intro name hname hgiven
    rw [names_addTerm]
    cases hprevious : g.term? t.id with
    | none => simp [Table.get?_insert, hname]
    | some previous =>
        have hformer : name ≠ previous.fullName := (hgiven previous hprevious).symm
        by_cases hsame : previous.fullName = t.fullName
        · simp only [if_pos hsame]
        · simp [if_neg hsame, Table.get?_insert, Table.get?_erase, hname, hformer]

theorem Rewired.distinct {g' : TermGraph} (h : Rewired g g') (hg : g.Distinct) : g'.Distinct := by
  obtain ⟨edges, rfl⟩ := h
  exact hg

/-- Every state of the term graph has one node for each identity. -/
theorem distinct_of_built (h : Built g) : g.Distinct := by
  induction h with
  | empty => exact List.nodup_nil
  | @write g w hbuilt ih =>
      rcases rewired_or_edit w g with ⟨x, rfl⟩ | hrewired
      · exact ih.editRun x
      · exact hrewired.distinct ih

instance : DirectoryStore TermGraph where
  record_empty _ := rfl
  record_edit {g} x _ := .inr (term?_editRun g x)
  indexed_edit {g} x _ h hdistinct hdistinct' := by
    cases x with
    | putGlossary glossary => exact h
    | putTerm t => exact indexed_putTerm h hdistinct hdistinct'
    | deleteTerm id =>
        have hrecords : (Edit.run (.deleteTerm id) g).term? =
            (Edit.deleteTerm id).onTerms g.term? := funext (term?_editRun g (.deleteTerm id))
        rw [indexed_iff] at h ⊢
        rw [hrecords]
        show LeadsToRecords ((deleteTerm id).run g).2.names _
        rw [names_deleteTerm]
        exact h.deleteTerm id
  mem_membersOf h := (distinct_of_built h).mem_members

end TermGraph

/-! ## The ordered store -/

namespace OrderedStore

variable {s : OrderedStore}

theorem indexed_iff (hfiled : Filed s) : Indexed s ↔ LeadsToRecords s.names s.term? := by
  have hanswer : ∀ name, (Store.termByName name).answer? s = some (s.termByName? name) :=
    fun _ => rfl
  constructor
  · intro h id t ht
    have hfound := h id t ht
    rw [hanswer] at hfound
    obtain ⟨other, hother, hterm⟩ := Option.bind_eq_some_iff.1 (Option.some.inj hfound)
    rw [hother, ← (hfiled.id_of_term? hterm).1, (hfiled.id_of_term? ht).1]
  · intro h id t ht
    rw [hanswer, termByName?, h id t ht]
    exact congrArg some ht

/-- A term that is written claims its name, be it new or not. -/
theorem indexed_putTerm {t : Term} (hfiled : Filed s) (ht : t.id.isStorable = true)
    (h : Indexed s) (hdistinct : DistinctNames s) (hdistinct' : DistinctNames (s.putTerm t)) :
    Indexed (s.putTerm t) := by
  have hrecords : (s.putTerm t).term? = (Edit.putTerm t).onTerms s.term? :=
    funext (term?_putTerm s t)
  rw [indexed_iff hfiled] at h
  rw [indexed_iff (hfiled.putTerm ht), hrecords]
  refine h.putTerm hdistinct ?_ ?_ ?_
  · intro id u hid hu hsame
    refine hid (hdistinct' id t.id u t ?_ ?_ hsame)
    · rw [record_eq, term?_putTerm, if_neg hid, hu]
    · rw [record_eq, term?_putTerm, if_pos rfl]
  · simp [putTerm, Table.get?_insert]
  · intro name hname hgiven
    simp only [putTerm, Table.get?_insert, if_neg hname]
    cases hprevious : s.term? t.id with
    | none => rfl
    | some previous =>
        have hformer : name ≠ previous.fullName := (hgiven previous hprevious).symm
        by_cases hsame : previous.fullName = t.fullName
        · simp only [if_pos hsame]
        · simp only [if_neg hsame, Table.get?_erase, if_neg hformer]

/-- What there is to check to see that names are distinct. -/
theorem distinctNames_of_nodup (hs : s.Filed)
    (h : (s.terms.values.map (·.fullName)).Nodup) : DistinctNames s := by
  intro a b t u ht hu hsame
  have hvalue : ∀ {id : TermId} {v : Term}, record s id = some v →
      v ∈ s.terms.values ∧ v.id = id := by
    intro id v hv
    have hid := (hs.id_of_term? hv).1
    exact ⟨hs.mem_values_iff.2 (by rw [hid]; exact hv), hid⟩
  obtain rfl := List.inj_on_of_nodup_map h (hvalue ht).1 (hvalue hu).1 hsame
  exact (hvalue ht).2.symm.trans (hvalue hu).2

/-- An edit of an identity that may not be stored is refused. -/
theorem editRun_of_not_storable (hfiled : Filed s) {x : Edit} (hx : x.isStorable = false) :
    x.run s = s := by
  cases x with
  | putGlossary glossary => cases hx
  | putTerm t =>
      have ht : ¬ t.id.isStorable = true := Bool.eq_false_iff.1 hx
      show ((storeTerm t).run s).2 = s
      rw [storeTerm_run, if_neg ht]
  | deleteTerm id =>
      show ((deleteTerm id).run s).2 = s
      rw [deleteTerm_run]
      cases hterm : s.term? id with
      | none => rfl
      | some t =>
          have hfree := (hfiled.id_of_term? hterm).2
          exact absurd (TermId.isStorable_iff.2 hfree) (Bool.eq_false_iff.1 hx)

theorem indexed_storeTerm {t : Term} (hfiled : Filed s) (h : Indexed s)
    (hdistinct : DistinctNames s) (hdistinct' : DistinctNames ((storeTerm t).run s).2) :
    Indexed ((storeTerm t).run s).2 := by
  rw [storeTerm_run] at hdistinct' ⊢
  by_cases ht : t.id.isStorable = true
  · rw [if_pos ht] at hdistinct' ⊢
    exact indexed_putTerm hfiled ht h hdistinct hdistinct'
  · rw [if_neg ht]
    exact h

instance : DirectoryStore OrderedStore where
  record_empty _ := rfl
  record_edit {s} x (hfiled : Filed s) := by
    by_cases hx : x.isStorable = true
    · exact .inr (term?_editRun hfiled hx)
    · exact .inl (editRun_of_not_storable hfiled (Bool.eq_false_iff.2 hx))
  indexed_edit {s} x (hfiled : Filed s) h hdistinct hdistinct' := by
    cases x with
    | putGlossary glossary => exact h
    | putTerm t => exact indexed_storeTerm hfiled h hdistinct hdistinct'
    | deleteTerm id =>
        change Indexed ((deleteTerm id).run s).2
        change DistinctNames ((deleteTerm id).run s).2 at hdistinct'
        rw [deleteTerm_run] at hdistinct' ⊢
        cases hterm : s.term? id with
        | none => exact h
        | some t =>
            rw [hterm] at hdistinct'
            exact indexed_storeTerm hfiled h hdistinct hdistinct'
  mem_membersOf h := (sound_of_built h : Filed _).mem_members

end OrderedStore

instance : (b : Backend) → DirectoryStore b.State
  | .memory => inferInstanceAs (DirectoryStore TermGraph)
  | .ordered => inferInstanceAs (DirectoryStore OrderedStore)

/-- Either store lists every member once. -/
theorem Backend.nodup_membersOf (b : Backend) {s : b.State} (hs : Built s) (id : GlossaryId) :
    (membersOf s id).Nodup := by
  cases b with
  | memory => exact (TermGraph.distinct_of_built hs).nodup_members id
  | ordered => exact (sound_of_built hs : OrderedStore.Filed s).nodup_members id

end Thesaurus
