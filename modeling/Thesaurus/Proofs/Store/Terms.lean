import Thesaurus.Proofs.Store.Memory
import Thesaurus.Proofs.Store.Ordered

/-!
# What edits do to terms

Writing a term sets the record of its identity and no other; deleting a term
marks its record. The two stores reach this in different ways: the term graph
changes the node that it finds first, the ordered store an entry of a table. Both
list every term once, so the members of a glossary are read off the records.

## Main definitions

* `Edit.onTerms`: the effect of an edit on records, said without any store.
* `TermGraph.Distinct`: no two nodes have one identity.

## Main results

* `TermGraph.term?_editRun`, `OrderedStore.term?_editRun`: records after an edit.
* `TermGraph.mem_members`, `OrderedStore.mem_members`: members, read off records.
-/

namespace Thesaurus

open Store

/-- The term, marked as deleted. -/
def Term.asDeleted (t : Term) : Term := { t with deleted := true }

/-- The record of an identity after an edit that the store accepts. -/
def Edit.onTerms (x : Edit) (records : TermId → Option Term) (id : TermId) : Option Term :=
  match x with
  | .putGlossary _ => records id
  | .putTerm t => if id = t.id then some t else records id
  | .deleteTerm deleted =>
      if id = deleted then (records id).map Term.asDeleted else records id

/-- The glossaries after an edit. -/
def Edit.onGlossaries (x : Edit) (glossaries : Table Glossary) : Table Glossary :=
  match x with
  | .putGlossary g => glossaries.insert g.id.text g
  | .putTerm _ | .deleteTerm _ => glossaries

/-- Whether the identities that an edit names may be stored. -/
def Edit.isStorable : Edit → Bool
  | .putGlossary _ => true
  | .putTerm t => t.id.isStorable
  | .deleteTerm id => id.isStorable

/-! ## The term graph -/

namespace TermGraph

variable {g : TermGraph}

/-- Changing a node shows at its identity only, as long as it keeps that identity. -/
theorem term?_updateNode (g : TermGraph) {id : TermId} {f : Node → Node}
    (hf : ∀ n, n.term.id = id → (f n).term.id = id) (other : TermId) :
    (g.updateNode id f).term? other =
      if other = id then (g.node? id).map fun n => (f n).term else g.term? other := by
  have hids : ∀ n : Node, (if n.term.id = id then f n else n).term.id = n.term.id := by
    intro n
    by_cases hn : n.term.id = id
    · rw [if_pos hn, hf n hn, hn]
    · rw [if_neg hn]
  have hnode : (g.updateNode id f).node? other =
      (g.node? other).map fun n => if n.term.id = id then f n else n := by
    unfold node? updateNode
    rw [List.find?_map]
    congr 2
    funext n
    simp only [Function.comp_apply, hids]
  rw [term?, hnode, term?, Option.map_map]
  by_cases hother : other = id
  · subst hother
    rw [if_pos rfl]
    refine Option.map_congr fun n hn => ?_
    have hid : n.term.id = other := by simpa using List.find?_some hn
    simp only [Function.comp_apply, if_pos hid]
  · rw [if_neg hother]
    refine Option.map_congr fun n hn => ?_
    have hid : n.term.id = other := by simpa using List.find?_some hn
    simp only [Function.comp_apply, if_neg (hid ▸ hother)]

theorem term?_congr {g' : TermGraph} (h : g'.nodes = g.nodes) (id : TermId) :
    g'.term? id = g.term? id := by
  rw [term?, node?, h, term?, node?]

/-- Adding a term changes the node of its identity, or appends one if there is
none; the rest of what it does is about names and places. -/
theorem nodes_addTerm (g : TermGraph) (t : Term) :
    (g.node? t.id = none ∧
        (g.addTerm t).nodes = g.nodes ++ [{ term := t, joined := g.nextJoin }]) ∨
      ∃ n f, g.node? t.id = some n ∧ (∀ m, (f m).term = t) ∧
        (g.addTerm t).nodes = (g.updateNode t.id f).nodes := by
  unfold addTerm
  cases hprevious : g.term? t.id with
  | none => exact .inl ⟨by simpa [term?] using hprevious, rfl⟩
  | some previous =>
      obtain ⟨n, hn, -⟩ := Option.map_eq_some_iff.1 hprevious
      refine .inr ⟨n, ?_⟩
      by_cases hglossary : previous.glossary = t.glossary
      · refine ⟨fun m => { m with term := t }, hn, fun _ => rfl, ?_⟩
        simp only [if_pos hglossary]
        by_cases hname : previous.fullName = t.fullName
        · simp only [if_pos hname]
        · simp only [if_neg hname, updateNode]
      · refine ⟨fun _ => { term := t, joined := g.nextJoin }, hn, fun _ => rfl, ?_⟩
        simp only [if_neg hglossary]
        by_cases hname : previous.fullName = t.fullName
        · simp only [if_pos hname]
        · simp only [if_neg hname, updateNode]

/-- Adding a term sets the record of its identity, be it known or new. -/
theorem term?_addTerm (g : TermGraph) (t : Term) (id : TermId) :
    (g.addTerm t).term? id = if id = t.id then some t else g.term? id := by
  rcases nodes_addTerm g t with ⟨hnone, hnodes⟩ | ⟨n, f, hn, hf, hnodes⟩
  · rw [term?, node?, hnodes, List.find?_append]
    by_cases hid : id = t.id
    · subst hid
      rw [if_pos rfl]
      show Option.map _ ((g.node? t.id).or _) = _
      rw [hnone]
      simp
    · rw [if_neg hid]
      simp [term?, node?, Ne.symm hid]
  · rw [term?_congr hnodes, term?_updateNode g (fun m _ => congrArg Term.id (hf m))]
    simp only [hn, Option.map_some, hf]

theorem deleteTerm_run (id : TermId) (g : TermGraph) :
    (deleteTerm id).run g =
      if g.knows id = true then
        (.ok (), g.updateNode id fun n => { n with term := n.term.asDeleted })
      else (.error (.refused (.notFound id.text)), g) := by
  unfold deleteTerm
  rw [run_get_bind, markDeleted?]
  by_cases hknown : g.knows id = true
  · rw [if_pos hknown, if_pos hknown]
    rfl
  · rw [if_neg hknown, if_neg hknown]
    rfl

/-- The term graph accepts every edit. -/
theorem term?_editRun (g : TermGraph) (x : Edit) (id : TermId) :
    (x.run g).term? id = x.onTerms g.term? id := by
  cases x with
  | putGlossary glossary => rfl
  | putTerm t => exact term?_addTerm g t id
  | deleteTerm deleted =>
      show ((deleteTerm deleted).run g).2.term? id = _
      rw [deleteTerm_run, Edit.onTerms]
      by_cases hknown : g.knows deleted = true
      · rw [if_pos hknown]
        show (g.updateNode deleted _).term? id = _
        rw [term?_updateNode g (fun _ h => by exact h)]
        by_cases hid : id = deleted
        · subst hid
          rw [if_pos rfl, if_pos rfl, term?, Option.map_map]
          rfl
        · rw [if_neg hid, if_neg hid]
      · rw [if_neg hknown]
        have hnone : g.term? deleted = none := by
          simpa [knows, term?] using hknown
        by_cases hid : id = deleted
        · subst hid
          rw [if_pos rfl, hnone]
          rfl
        · rw [if_neg hid]

theorem glossaries_addTerm (g : TermGraph) (t : Term) :
    (g.addTerm t).glossaries = g.glossaries := by
  unfold addTerm
  cases g.term? t.id with
  | none => rfl
  | some previous =>
      by_cases hname : previous.fullName = t.fullName
      · simp only [if_pos hname]
        split <;> rfl
      · simp only [if_neg hname]
        split <;> rfl

theorem glossaries_editRun (g : TermGraph) (x : Edit) :
    (x.run g).glossaries = x.onGlossaries g.glossaries := by
  cases x with
  | putGlossary glossary => rfl
  | putTerm t => exact glossaries_addTerm g t
  | deleteTerm id =>
      show ((deleteTerm id).run g).2.glossaries = g.glossaries
      rw [deleteTerm_run]
      split <;> rfl

/-! ### Members -/

/-- No two nodes have one identity. -/
def Distinct (g : TermGraph) : Prop := (g.nodes.map (·.term.id)).Nodup

theorem ids_updateNode (g : TermGraph) {id : TermId} {f : Node → Node}
    (hf : ∀ n, n.term.id = id → (f n).term.id = id) :
    (g.updateNode id f).nodes.map (·.term.id) = g.nodes.map (·.term.id) := by
  unfold updateNode
  rw [List.map_map]
  refine List.map_congr_left fun n _ => ?_
  show (if n.term.id = id then f n else n).term.id = n.term.id
  by_cases hn : n.term.id = id
  · rw [if_pos hn, hf n hn, hn]
  · rw [if_neg hn]

theorem Distinct.addTerm (h : g.Distinct) (t : Term) : (g.addTerm t).Distinct := by
  rcases nodes_addTerm g t with ⟨hnone, hnodes⟩ | ⟨n, f, -, hf, hnodes⟩
  · rw [Distinct, hnodes, List.map_append]
    refine List.Nodup.append h (List.nodup_singleton _) ?_
    rw [List.map_singleton, List.disjoint_singleton]
    intro hmem
    obtain ⟨n, hn, hid⟩ := List.mem_map.1 hmem
    have hnot := List.find?_eq_none.1 hnone n hn
    simp [hid] at hnot
  · rw [Distinct, hnodes, ids_updateNode g (fun m _ => congrArg Term.id (hf m))]
    exact h

theorem Distinct.editRun (h : g.Distinct) (x : Edit) : (x.run g).Distinct := by
  cases x with
  | putGlossary glossary => exact h
  | putTerm t => exact h.addTerm t
  | deleteTerm id =>
      show ((deleteTerm id).run g).2.Distinct
      rw [deleteTerm_run]
      by_cases hknown : g.knows id = true
      · rw [if_pos hknown]
        show ((g.updateNode id _).nodes.map (·.term.id)).Nodup
        rw [ids_updateNode g (fun _ hn => by exact hn)]
        exact h
      · rw [if_neg hknown]
        exact h

theorem Distinct.mem_terms_iff (h : g.Distinct) {t : Term} :
    t ∈ g.nodes.map (·.term) ↔ g.term? t.id = some t := by
  constructor
  · intro hmem
    obtain ⟨n, hn, rfl⟩ := List.mem_map.1 hmem
    have hsome : (g.node? n.term.id).isSome = true :=
      List.find?_isSome.2 ⟨n, hn, beq_self_eq_true _⟩
    obtain ⟨m, hm⟩ := Option.isSome_iff_exists.1 hsome
    have hid : m.term.id = n.term.id := by simpa using List.find?_some hm
    obtain rfl := List.inj_on_of_nodup_map h (List.mem_of_find?_eq_some hm) hn hid
    rw [term?, hm]
    rfl
  · intro ht
    obtain ⟨n, hn, rfl⟩ := Option.map_eq_some_iff.1 ht
    exact List.mem_map_of_mem (List.mem_of_find?_eq_some hn)

theorem Distinct.mem_members (h : g.Distinct) {id : GlossaryId} {t : Term} :
    t ∈ g.members id ↔ g.term? t.id = some t ∧ t.glossary = id ∧ t.deleted = false := by
  rw [← h.mem_terms_iff]
  simp only [members, List.mem_map, List.mem_mergeSort, List.mem_filter, Bool.and_eq_true,
    decide_eq_true_eq, Bool.not_eq_true']
  constructor
  · rintro ⟨n, ⟨hn, hmember⟩, rfl⟩
    exact ⟨⟨n, hn, rfl⟩, hmember⟩
  · rintro ⟨⟨n, hn, rfl⟩, hmember⟩
    exact ⟨n, ⟨hn, hmember⟩, rfl⟩

theorem Distinct.nodup_members (h : g.Distinct) (id : GlossaryId) : (g.members id).Nodup := by
  have hterms : (g.nodes.map (·.term)).Nodup := by
    refine List.Nodup.of_map (·.id) ?_
    rw [List.map_map]
    exact h
  unfold members
  refine List.Nodup.perm ?_ ((List.mergeSort_perm _ _).symm.map _)
  exact (List.filter_sublist.map _).nodup hterms

end TermGraph

/-! ## The ordered store -/

namespace OrderedStore

variable {s : OrderedStore}

theorem term?_putTerm (s : OrderedStore) (t : Term) (id : TermId) :
    (s.putTerm t).term? id = if id = t.id then some t else s.term? id := by
  show (s.terms.insert t.id.text t).get? id.text = _
  rw [Table.get?_insert]
  by_cases hid : id = t.id
  · rw [if_pos hid, if_pos (congrArg TermId.text hid)]
  · have htext : id.text ≠ t.id.text := fun h => hid (TermId.ext_text (congrArg String.toList h))
    rw [if_neg hid, if_neg htext]
    rfl

theorem deleteTerm_run_of_filed (h : Filed s) (id : TermId) :
    (deleteTerm id).run s =
      match s.term? id with
      | some t => (.ok (), s.putTerm t.asDeleted)
      | none => (.error (.refused (.notFound id.text)), s) := by
  rw [deleteTerm_run]
  cases hterm : s.term? id with
  | none => rfl
  | some t =>
      have hstorable : t.asDeleted.id.isStorable = true := (h.terms id.text t hterm).2
      show (storeTerm t.asDeleted).run s = _
      rw [storeTerm_run, if_pos hstorable]

/-- The ordered store accepts the edits that name identities it may store. -/
theorem term?_editRun (h : Filed s) {x : Edit} (hx : x.isStorable = true) (id : TermId) :
    (x.run s).term? id = x.onTerms s.term? id := by
  cases x with
  | putGlossary glossary => rfl
  | putTerm t =>
      show ((storeTerm t).run s).2.term? id = _
      rw [storeTerm_run, if_pos (by exact hx)]
      exact term?_putTerm s t id
  | deleteTerm deleted =>
      show ((deleteTerm deleted).run s).2.term? id = _
      rw [deleteTerm_run_of_filed h, Edit.onTerms]
      cases hterm : s.term? deleted with
      | none =>
          show s.term? id = _
          by_cases hid : id = deleted
          · subst hid
            rw [if_pos rfl, hterm]
            rfl
          · rw [if_neg hid]
      | some t =>
          have hown : t.asDeleted.id = deleted := (h.id_of_term? hterm).1
          show (s.putTerm t.asDeleted).term? id = _
          rw [term?_putTerm, hown]
          by_cases hid : id = deleted
          · subst hid
            rw [if_pos rfl, if_pos rfl, hterm]
            rfl
          · rw [if_neg hid, if_neg hid]

theorem glossaries_storeTerm (t : Term) (s : OrderedStore) :
    ((storeTerm t).run s).2.glossaries = s.glossaries := by
  rw [storeTerm_run]
  split <;> rfl

theorem glossaries_editRun (s : OrderedStore) (x : Edit) :
    (x.run s).glossaries = x.onGlossaries s.glossaries := by
  cases x with
  | putGlossary glossary => rfl
  | putTerm t => exact glossaries_storeTerm t s
  | deleteTerm id =>
      show ((deleteTerm id).run s).2.glossaries = s.glossaries
      rw [deleteTerm_run]
      cases s.term? id with
      | none => rfl
      | some t => exact glossaries_storeTerm _ s

/-! ### Members -/

theorem Filed.mem_values_iff (h : Filed s) {t : Term} :
    t ∈ s.terms.values ↔ s.term? t.id = some t := by
  constructor
  · intro hmem
    obtain ⟨⟨key, u⟩, hentry, rfl⟩ := List.mem_map.1 hmem
    have hget := Table.mem_entries_iff.1 hentry
    rw [term?, (h.terms key u hget).1]
    exact hget
  · intro ht
    exact List.mem_map.2 ⟨(t.id.text, t), Table.mem_entries_iff.2 ht, rfl⟩

theorem Filed.mem_members (h : Filed s) {id : GlossaryId} {t : Term} :
    t ∈ s.members id ↔ s.term? t.id = some t ∧ t.glossary = id ∧ t.deleted = false := by
  simp only [members, List.mem_mergeSort, List.mem_filter, Bool.and_eq_true, decide_eq_true_eq,
    Bool.not_eq_true', h.mem_values_iff]

theorem Filed.nodup_members (h : Filed s) (id : GlossaryId) : (s.members id).Nodup := by
  have hkeys : s.terms.values.map (·.id.text) = s.terms.keys := by
    rw [Table.values, List.map_map, Table.keys]
    refine List.map_congr_left fun entry hentry => ?_
    exact (h.terms entry.1 entry.2 (Table.mem_entries_iff.1 hentry)).1
  have hvalues : s.terms.values.Nodup := by
    refine List.Nodup.of_map (·.id.text) ?_
    rw [hkeys]
    exact s.terms.nodup_keys
  exact (List.mergeSort_perm _ _).nodup_iff.2 (hvalues.filter _)

end OrderedStore

end Thesaurus
