import Thesaurus.Proofs.Sheet.Row
import Thesaurus.Proofs.Store.Directory

/-!
# What names lead to

A store keeps one entry for each fully qualified name. Whoever has a name is not said
by that: an entry leads to a record of that name, but a record need not have an entry.
A record that changes its name takes away the entry of the former one, whichever record
the entry leads to.

## Main definitions

* `NamesRecords`: a table of names whose entries lead to records of these names.

## Main results

* `Backend.eq_of_named`: what a name leads to is a live term of that name.
* `Backend.named_putTerm`: a name that is given up leads nowhere.
-/

namespace Thesaurus

open Store LawfulStore

/-! ## Entries lead to records of their names -/

/-- A table whose entries lead to records of the names under which they stand. -/
def NamesRecords (names : Table TermId) (records : TermId → Option Term) : Prop :=
  ∀ name id, names.get? name = some id → ∃ t, records id = some t ∧ t.fullName = name

namespace NamesRecords

variable {names names' : Table TermId} {records : TermId → Option Term}

/-- Entries still lead to records of their names when one of the records is written, if
no entry is left under the name it gives up and all new entries lead to it. -/
theorem putTerm {t : Term} (h : NamesRecords names records)
    (hnew : ∀ name id, names'.get? name = some id →
      (name = t.fullName ∧ id = t.id) ∨ names.get? name = some id)
    (hgone : ∀ name u, name ≠ t.fullName → records t.id = some u → u.fullName = name →
      names'.get? name = none) :
    NamesRecords names' ((Edit.putTerm t).onTerms records) := by
  intro name id hget
  have hown : id = t.id → name = t.fullName →
      ∃ u, (Edit.putTerm t).onTerms records id = some u ∧ u.fullName = name :=
    fun hid hname => ⟨t, if_pos hid, hname.symm⟩
  rcases hnew name id hget with ⟨hname, hid⟩ | hold
  · exact hown hid hname
  · obtain ⟨u, hu, hname⟩ := h name id hold
    by_cases hid : id = t.id
    · refine hown hid ?_
      by_contra hdiffers
      rw [hgone name u hdiffers (hid ▸ hu) hname] at hget
      cases hget
    · exact ⟨u, by rw [Edit.onTerms, if_neg hid, hu], hname⟩

theorem deleteTerm (h : NamesRecords names records) (deleted : TermId) :
    NamesRecords names ((Edit.deleteTerm deleted).onTerms records) := by
  intro name id hget
  obtain ⟨t, ht, hname⟩ := h name id hget
  by_cases hid : id = deleted
  · exact ⟨t.asDeleted, by rw [Edit.onTerms, if_pos hid, ht]; rfl, hname⟩
  · exact ⟨t, by rw [Edit.onTerms, if_neg hid, ht], hname⟩

end NamesRecords

/-! ## The term graph -/

namespace TermGraph

variable {g : TermGraph}

theorem namesRecords_addTerm {t : Term} (h : NamesRecords g.names g.term?) :
    NamesRecords (g.addTerm t).names (g.addTerm t).term? := by
  have hrecords : (g.addTerm t).term? = (Edit.putTerm t).onTerms g.term? :=
    funext (term?_addTerm g t)
  rw [hrecords, names_addTerm]
  refine h.putTerm (fun name id hget => ?_) fun name u hname hu hold => ?_
  · cases hprevious : g.term? t.id with
    | none =>
        rw [hprevious] at hget
        simp only [Table.get?_insert] at hget
        split at hget
        · next hname => exact .inl ⟨hname, (Option.some.inj hget).symm⟩
        · exact .inr hget
    | some previous =>
        rw [hprevious] at hget
        by_cases hsame : previous.fullName = t.fullName
        · simp only [if_pos hsame] at hget
          exact .inr hget
        · simp only [if_neg hsame, Table.get?_insert, Table.get?_erase] at hget
          split at hget
          · next hname => exact .inl ⟨hname, (Option.some.inj hget).symm⟩
          · split at hget
            · cases hget
            · exact .inr hget
  · subst hold
    rw [hu]
    simp [Table.get?_insert, Table.get?_erase, hname]

theorem namesRecords_of_built (h : Built g) : NamesRecords g.names g.term? := by
  induction h with
  | empty => intro name id hget; cases hget
  | @write g w hbuilt ih =>
      rcases rewired_or_edit w g with ⟨x, rfl⟩ | hrewired
      · cases x with
        | putGlossary glossary => exact ih
        | putTerm t => exact namesRecords_addTerm ih
        | deleteTerm id =>
            have hrecords : (Edit.run (.deleteTerm id) g).term? =
                (Edit.deleteTerm id).onTerms g.term? := funext (term?_editRun g (.deleteTerm id))
            show NamesRecords ((deleteTerm id).run g).2.names (Edit.run (.deleteTerm id) g).term?
            rw [hrecords, names_deleteTerm]
            exact ih.deleteTerm id
      · obtain ⟨edges, hedges⟩ := hrewired
        rw [hedges]
        exact ih

theorem termByName?_addTerm {u v : Term} (hu : g.term? v.id = some u)
    (hname : u.fullName ≠ v.fullName) : (g.addTerm v).termByName? u.fullName = none := by
  unfold termByName?
  rw [names_addTerm, hu]
  simp [Table.get?_insert, Table.get?_erase, hname]

end TermGraph

/-! ## The ordered store -/

namespace OrderedStore

variable {s : OrderedStore}

theorem namesRecords_putTerm {t : Term} (h : NamesRecords s.names s.term?) :
    NamesRecords (s.putTerm t).names (s.putTerm t).term? := by
  have hrecords : (s.putTerm t).term? = (Edit.putTerm t).onTerms s.term? :=
    funext (term?_putTerm s t)
  rw [hrecords]
  refine h.putTerm (fun name id hget => ?_) fun name u hname hu hold => ?_
  · simp only [putTerm, Table.get?_insert] at hget
    split at hget
    · next hname => exact .inl ⟨hname, (Option.some.inj hget).symm⟩
    · refine .inr ?_
      cases hprevious : s.term? t.id with
      | none => rwa [hprevious] at hget
      | some previous =>
          rw [hprevious] at hget
          by_cases hsame : previous.fullName = t.fullName
          · simpa only [if_pos hsame] using hget
          · simp only [if_neg hsame, Table.get?_erase] at hget
            split at hget
            · cases hget
            · exact hget
  · subst hold
    simp [putTerm, hu, Table.get?_insert, Table.get?_erase, hname]

theorem namesRecords_storeTerm {t : Term} (h : NamesRecords s.names s.term?) :
    NamesRecords ((storeTerm t).run s).2.names ((storeTerm t).run s).2.term? := by
  rw [storeTerm_run]
  by_cases ht : t.id.isStorable = true
  · rw [if_pos ht]
    exact namesRecords_putTerm h
  · rw [if_neg ht]
    exact h

theorem namesRecords_of_built (h : Built s) : NamesRecords s.names s.term? := by
  induction h with
  | empty => intro name id hget; cases hget
  | @write s w hbuilt ih =>
      rcases rewired_or_edit w s with ⟨x, rfl⟩ | hrewired
      · cases x with
        | putGlossary glossary => exact ih
        | putTerm t => exact namesRecords_storeTerm ih
        | deleteTerm id =>
            show NamesRecords ((deleteTerm id).run s).2.names ((deleteTerm id).run s).2.term?
            rw [deleteTerm_run]
            cases s.term? id with
            | none => exact ih
            | some t => exact namesRecords_storeTerm ih
      · obtain ⟨edgeKeys, hedgeKeys⟩ := hrewired
        rw [hedgeKeys]
        exact ih

theorem termByName?_putTerm {u v : Term} (hu : s.term? v.id = some u)
    (hname : u.fullName ≠ v.fullName) : (s.putTerm v).termByName? u.fullName = none := by
  unfold termByName? putTerm
  simp [hu, Table.get?_insert, Table.get?_erase, hname]

end OrderedStore

/-! ## Either store -/

/-- What the lookup of a name leads to, by way of an entry, is a live term of the name. -/
theorem NamesRecords.eq_of_lookup {names : Table TermId} {records : TermId → Option Term}
    (h : NamesRecords names records) {name : String} {u : Term}
    (hu : ((names.get? name).bind records).bind Term.live? = some u) :
    u.fullName = name ∧ u.deleted = false := by
  obtain ⟨t, ht, hlive⟩ := Option.bind_eq_some_iff.1 hu
  obtain ⟨id, hid, hrecord⟩ := Option.bind_eq_some_iff.1 ht
  obtain ⟨rfl, hdeleted⟩ := Term.live?_eq_some_iff.1 hlive
  obtain ⟨v, hv, hname⟩ := h name id hid
  rw [hrecord] at hv
  obtain rfl := Option.some.inj hv
  exact ⟨hname, hdeleted⟩

/-- What a name leads to is a live term of that name, in every state. -/
theorem Backend.eq_of_named (b : Backend) {s : b.State} (hs : Built s) {name : String} {u : Term}
    (hu : named s name = some u) : u.fullName = name ∧ u.deleted = false := by
  cases b with
  | memory => exact (TermGraph.namesRecords_of_built hs).eq_of_lookup hu
  | ordered => exact (OrderedStore.namesRecords_of_built hs).eq_of_lookup hu

/-- A name that a record gives up leads nowhere, whichever record it led to. -/
theorem Backend.named_putTerm (b : Backend) {s : b.State} {u v : Term} (hs : Sound s)
    (hu : record s v.id = some u) (hname : u.fullName ≠ v.fullName) :
    named (Edit.run (.putTerm v) s) u.fullName = none := by
  cases b with
  | memory =>
      show ((TermGraph.addTerm s v).termByName? u.fullName).bind Term.live? = none
      rw [TermGraph.termByName?_addTerm hu hname]
      rfl
  | ordered =>
      have hfiled : OrderedStore.Filed s := hs
      have hstorable : v.id.isStorable = true :=
        TermId.isStorable_iff.2 (hfiled.id_of_term? hu).2
      have hrun : Edit.run (.putTerm v) s = OrderedStore.putTerm s v := by
        show ((OrderedStore.storeTerm v).run s).2 = _
        rw [OrderedStore.storeTerm_run, if_pos hstorable]
      rw [hrun]
      show ((OrderedStore.putTerm s v).termByName? u.fullName).bind Term.live? = none
      rw [OrderedStore.termByName?_putTerm hu hname]
      rfl

end Thesaurus
