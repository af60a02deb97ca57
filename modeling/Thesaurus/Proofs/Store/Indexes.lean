import Mathlib.Data.List.Nodup
import Thesaurus.Proofs.Store.EdgeOrder
import Thesaurus.Store.IndexedGraph

/-!
# Indexes of the term graph

The tables of the term graph say what its nodes say. The index of an identity leads to the
one node that has the identity, every node is listed once under the glossary of its term
and under no other, and edges lead between nodes, no two of them alike. All calls keep it
so: a term that is added again stays at its node, a term that changes its glossary is taken
from the one listing when it is put on the other, and the edge that takes the place of a
removed one is none that was there before.

## Main definitions

* `Listings.Tells`, `Listings.Ranked`: listings that agree with a placing of nodes, and with
  an order of nodes.
* `IndexedGraph.Consistent`: the tables and the nodes agree.

## Main results

* `swapRemove_perm`: what is left of a list.
* `IndexedGraph.Consistent.call`, `IndexedGraph.consistent_runCalls`: calls keep the tables
  consistent.
-/

namespace Thesaurus

/-- Besides the item that is taken out, all items are left. -/
theorem swapRemove_perm {α : Type} {items : List α} {index : Nat} {a : α}
    (h : items[index]? = some a) : items.Perm (a :: swapRemove items index) := by
  rcases List.eq_nil_or_concat items with rfl | ⟨front, last, rfl⟩
  · cases h
  · rw [List.concat_eq_append] at h ⊢
    have hremoved : swapRemove (front ++ [last]) index =
        ((front ++ [last]).set index last).dropLast := by
      simp [swapRemove]
    obtain ⟨hlt, hget⟩ := List.getElem?_eq_some_iff.1 h
    rw [List.length_append, List.length_singleton] at hlt
    rw [hremoved]
    -- The last item fills the gap, unless it is the one that is taken out.
    rcases Nat.lt_or_ge index front.length with hindex | hindex
    · rw [List.getElem_append_left hindex] at hget
      have hfront : front = front.take index ++ a :: front.drop (index + 1) := by
        rw [← hget, List.getElem_cons_drop, List.take_append_drop]
      have hset : ((front ++ [last]).set index last).dropLast =
          front.take index ++ last :: front.drop (index + 1) := by
        rw [List.set_append_left _ _ hindex, List.dropLast_concat,
          List.set_eq_take_append_cons_drop, if_pos hindex]
      rw [hset]
      calc
        front ++ [last] = front.take index ++ a :: (front.drop (index + 1) ++ [last]) := by
          conv_lhs => rw [hfront]
          rw [List.append_assoc, List.cons_append]
        List.Perm _ (a :: (front.take index ++ (front.drop (index + 1) ++ [last]))) :=
          List.perm_middle
        List.Perm _ (a :: (front.take index ++ last :: front.drop (index + 1))) :=
          ((List.perm_append_singleton _ _).append_left _).cons a
    · have hlast : index = front.length := by omega
      subst hlast
      have hget : last = a := by simpa using hget
      have hset : ((front ++ [last]).set front.length last).dropLast = front := by simp
      rw [hset, hget]
      exact List.perm_append_singleton _ _

/-! ## Listings -/

theorem GlossaryId.text_injective : Function.Injective GlossaryId.text := by
  rintro ⟨a⟩ ⟨b⟩ h
  exact congrArg GlossaryId.mk h

namespace Listings

variable {listings : Listings} {place : Nat → Option GlossaryId} {id former current : GlossaryId}
  {index : Nat}

theorem under_add (listings : Listings) (id other : GlossaryId) (index : Nat) :
    (listings.add id index).under other =
      if other = id then listings.under id ++ [index] else listings.under other := by
  unfold add under
  rw [Table.get?_insert]
  simp only [GlossaryId.text_injective.eq_iff]
  split
  · rfl
  · rfl

theorem under_remove (listings : Listings) (id other : GlossaryId) (index : Nat) :
    (listings.remove id index).under other =
      if other = id then (listings.under id).filter (· ≠ index) else listings.under other := by
  unfold remove
  cases hlisted : listings.get? id.text with
  | some listed =>
      simp only [under, Table.get?_insert, GlossaryId.text_injective.eq_iff, hlisted]
      split
      · rfl
      · rfl
  | none =>
      by_cases hother : other = id
      · subst hother
        simp [under, hlisted]
      · rw [if_neg hother]

/-- The listings agree with a placing: each node is listed once under the glossary where it
has its place, and under no other. -/
def Tells (listings : Listings) (place : Nat → Option GlossaryId) : Prop :=
  ∀ id index, (listings.under id).count index = if place index = some id then 1 else 0

theorem Tells.mem_iff (h : listings.Tells place) :
    index ∈ listings.under id ↔ place index = some id := by
  rw [← List.count_pos_iff, h]
  split
  · next hplace => simp [hplace]
  · next hplace => simp [hplace]

theorem Tells.nodup (h : listings.Tells place) (id : GlossaryId) : (listings.under id).Nodup := by
  rw [List.nodup_iff_count_le_one]
  intro index
  rw [h]
  split <;> omega

/-- A node without a place gets one. -/
theorem Tells.add (h : listings.Tells place) (hplace : place index = none) :
    (listings.add id index).Tells (Function.update place index (some id)) := by
  intro other k
  rw [under_add]
  have hcount := h other k
  by_cases hk : k = index
  · subst hk
    rw [hplace, if_neg (by simp)] at hcount
    rw [Function.update_self]
    by_cases hother : other = id
    · subst hother
      simp [hcount]
    · rw [if_neg hother, hcount, if_neg (by simpa using Ne.symm hother)]
  · rw [Function.update_of_ne hk]
    by_cases hother : other = id
    · subst hother
      rw [if_pos rfl, List.count_append, hcount, List.count_singleton]
      simp [Ne.symm hk]
    · rw [if_neg hother, hcount]

theorem Tells.remove (h : listings.Tells place) (hplace : place index = some id) :
    (listings.remove id index).Tells (Function.update place index none) := by
  intro other k
  rw [under_remove]
  have hcount := h other k
  by_cases hother : other = id
  · subst hother
    rw [if_pos rfl]
    by_cases hk : k = index
    · subst hk
      rw [Function.update_self, if_neg (by simp), List.count_eq_zero]
      simp
    · rw [Function.update_of_ne hk, List.count_filter (by simpa using hk), hcount]
  · rw [if_neg hother, hcount]
    by_cases hk : k = index
    · subst hk
      rw [Function.update_self, hplace, if_neg (by simpa using Ne.symm hother), if_neg (by simp)]
    · rw [Function.update_of_ne hk]

/-- A node that moves has one place before and after. -/
theorem Tells.move (h : listings.Tells place) (hplace : place index = some former)
    (current : GlossaryId) :
    (listings.move former current index).Tells (Function.update place index (some current)) := by
  unfold Listings.move
  by_cases hsame : former = current
  · subst hsame
    rw [if_pos rfl, ← hplace, Function.update_eq_self]
    exact h
  · have hmoved : ((listings.remove former index).add current index).Tells
        (Function.update (Function.update place index none) index (some current)) :=
      (h.remove hplace).add (Function.update_self ..)
    rw [if_neg hsame]
    rwa [Function.update_idem] at hmoved

/-- Every glossary lists its nodes in the order of their ranks. -/
def Ranked (listings : Listings) (rank : Nat → Nat) : Prop :=
  ∀ id, (listings.under id).Pairwise fun j k => rank j < rank k

/-- The rank of a node that is not listed does not matter. -/
theorem Ranked.update {rank : Nat → Nat} (h : listings.Ranked rank)
    (hunlisted : ∀ id, index ∉ listings.under id) (r : Nat) :
    listings.Ranked (Function.update rank index r) := by
  intro id
  refine (h id).imp_of_mem fun {j k} hj hk hlt => ?_
  have hjne : j ≠ index := fun heq => hunlisted id (heq ▸ hj)
  have hkne : k ≠ index := fun heq => hunlisted id (heq ▸ hk)
  rwa [Function.update_of_ne hjne, Function.update_of_ne hkne]

/-- A node that comes to a glossary with a rank above all ranks comes last. -/
theorem Ranked.add {rank : Nat → Nat} (h : listings.Ranked rank)
    (hlast : ∀ j ∈ listings.under id, rank j < rank index) :
    (listings.add id index).Ranked rank := by
  intro other
  rw [under_add]
  by_cases hother : other = id
  · rw [if_pos hother, List.pairwise_append]
    refine ⟨h id, List.pairwise_singleton _ _, fun j hj k hk => ?_⟩
    rw [List.mem_singleton.1 hk]
    exact hlast j hj
  · rw [if_neg hother]
    exact h other

theorem Ranked.remove {rank : Nat → Nat} (h : listings.Ranked rank) (id : GlossaryId)
    (index : Nat) : (listings.remove id index).Ranked rank := by
  intro other
  rw [under_remove]
  by_cases hother : other = id
  · rw [if_pos hother]
    exact (h id).filter _
  · rw [if_neg hother]
    exact h other

end Listings

/-! ## Fields of nodes -/

section Fields

variable {α β : Type}

/-- A field of the items of a list, by index. -/
def fieldAt (f : α → β) (items : List α) (index : Nat) : Option β := (items[index]?).map f

variable {f : α → β} {items : List α} {a : α} {index : Nat}

theorem fieldAt_eq_none (h : items.length ≤ index) : fieldAt f items index = none := by
  rw [fieldAt, List.getElem?_eq_none h, Option.map_none]

theorem lt_of_fieldAt {b : β} (h : fieldAt f items index = some b) : index < items.length := by
  obtain ⟨a, ha, -⟩ := Option.map_eq_some_iff.1 h
  exact (List.getElem?_eq_some_iff.1 ha).1

theorem fieldAt_concat (f : α → β) (items : List α) (a : α) :
    fieldAt f (items ++ [a]) = Function.update (fieldAt f items) items.length (some (f a)) := by
  funext index
  by_cases hlast : index = items.length
  · subst hlast
    simp [fieldAt]
  · rw [Function.update_of_ne hlast]
    rcases Nat.lt_or_gt_of_ne hlast with hlt | hgt
    · rw [fieldAt, List.getElem?_append_left hlt, fieldAt]
    · have hbeyond : (items ++ [a]).length ≤ index := by
        rw [List.length_append, List.length_singleton]
        omega
      rw [fieldAt_eq_none hbeyond, fieldAt_eq_none (Nat.le_of_lt hgt)]

theorem fieldAt_set (f : α → β) (h : index < items.length) :
    fieldAt f (items.set index a) = Function.update (fieldAt f items) index (some (f a)) := by
  funext other
  by_cases hother : other = index
  · subst hother
    simp [fieldAt, h]
  · rw [Function.update_of_ne hother, fieldAt, List.getElem?_set_ne (Ne.symm hother), fieldAt]

/-- An item may be put in the place of one with the same field. -/
theorem fieldAt_set_of_eq {b : α} (hb : items[index]? = some b) (h : f a = f b) :
    fieldAt f (items.set index a) = fieldAt f items := by
  rw [fieldAt_set f (List.getElem?_eq_some_iff.1 hb).1, h]
  refine Function.update_eq_self_iff.2 ?_
  rw [fieldAt, hb, Option.map_some]

end Fields

theorem TermId.text_injective : Function.Injective TermId.text := fun _ _ h =>
  TermId.ext_text (congrArg String.toList h)

namespace IndexedGraph

variable {g : IndexedGraph}

/-- The identity of a node. -/
def idAt (g : IndexedGraph) : Nat → Option TermId := fieldAt Term.id g.nodes

/-- The glossary of a node. -/
def glossaryAt (g : IndexedGraph) : Nat → Option GlossaryId := fieldAt Term.glossary g.nodes

/-- The tables agree with the nodes, and arcs lead between nodes, each once. -/
structure Consistent (g : IndexedGraph) : Prop where
  index : ∀ id k, g.index? id = some k ↔ g.idAt k = some id
  names : ∀ name k, g.names.get? name = some k → k < g.nodes.length
  listings : g.listings.Tells g.glossaryAt
  ends : ∀ a ∈ g.arcs, a.source < g.nodes.length ∧ a.target < g.nodes.length
  nodup : g.arcs.Nodup

theorem consistent_empty : Consistent empty where
  index id k := by simp [empty, index?, idAt, fieldAt]
  names name k h := by cases h
  listings id k := by simp [empty, Listings.under, glossaryAt, fieldAt]
  ends a h := absurd h List.not_mem_nil
  nodup := List.nodup_nil

/-! ## Writing terms -/

theorem get?_renamed (names : Table Nat) (former current name : String) (index : Nat) :
    (renamed names former current index).get? name =
      if former = current then names.get? name
      else if name = current then some index
      else if name = former then none
      else names.get? name := by
  unfold renamed
  split
  · rfl
  · rw [Table.get?_insert, Table.get?_erase]

theorem index?_appendTerm (g : IndexedGraph) (t : Term) (id : TermId) :
    (g.appendTerm t).index? id = if id = t.id then some g.nodes.length else g.index? id := by
  rw [index?, appendTerm, Table.get?_insert]
  simp only [TermId.text_injective.eq_iff]
  rfl

namespace Consistent

theorem appendTerm (h : g.Consistent) {t : Term} (hnew : g.index? t.id = none) :
    (g.appendTerm t).Consistent where
  index id k := by
    have hend : g.idAt g.nodes.length = none := fieldAt_eq_none (Nat.le_refl _)
    have hids : (g.appendTerm t).idAt = Function.update g.idAt g.nodes.length (some t.id) :=
      fieldAt_concat _ _ _
    rw [index?_appendTerm, hids]
    have hold := h.index id k
    by_cases hid : id = t.id
    · subst hid
      rw [if_pos rfl]
      by_cases hk : k = g.nodes.length
      · simp [hk]
      · rw [hnew] at hold
        simpa [Function.update_of_ne hk, Ne.symm hk] using hold
    · rw [if_neg hid, hold]
      by_cases hk : k = g.nodes.length
      · simp [hk, hend, Ne.symm hid]
      · rw [Function.update_of_ne hk]
  names name k hname := by
    show k < (g.nodes ++ [t]).length
    rw [List.length_append, List.length_singleton]
    rw [IndexedGraph.appendTerm, Table.get?_insert] at hname
    split at hname
    · obtain rfl := Option.some.inj hname
      omega
    · have hlt := h.names name k hname
      omega
  listings := by
    have hplaces : (g.appendTerm t).glossaryAt =
        Function.update g.glossaryAt g.nodes.length (some t.glossary) := fieldAt_concat _ _ _
    rw [hplaces]
    exact h.listings.add (fieldAt_eq_none (Nat.le_refl _))
  ends a ha := by
    show a.source < (g.nodes ++ [t]).length ∧ a.target < (g.nodes ++ [t]).length
    have hends := h.ends a ha
    rw [List.length_append, List.length_singleton]
    omega
  nodup := h.nodup

theorem replaceTerm (h : g.Consistent) {k : Nat} {previous t : Term}
    (hprevious : g.nodes[k]? = some previous) (hid : t.id = previous.id) :
    (g.replaceTerm k previous t).Consistent where
  index id j := by
    have hids : (g.replaceTerm k previous t).idAt = g.idAt := fieldAt_set_of_eq hprevious hid
    rw [hids]
    exact h.index id j
  names name j hname := by
    have hlt := (List.getElem?_eq_some_iff.1 hprevious).1
    show j < (g.nodes.set k t).length
    rw [List.length_set]
    have hfound := get?_renamed g.names previous.fullName t.fullName name k
    rw [show (renamed g.names previous.fullName t.fullName k).get? name = some j from hname]
      at hfound
    split_ifs at hfound
    · exact h.names name j hfound.symm
    · exact Option.some.inj hfound ▸ hlt
    · exact h.names name j hfound.symm
  listings := by
    have hplaces : (g.replaceTerm k previous t).glossaryAt =
        Function.update g.glossaryAt k (some t.glossary) :=
      fieldAt_set _ (List.getElem?_eq_some_iff.1 hprevious).1
    have hplace : g.glossaryAt k = some previous.glossary := by
      rw [glossaryAt, fieldAt, hprevious, Option.map_some]
    rw [hplaces]
    exact h.listings.move hplace t.glossary
  ends a ha := by
    show a.source < (g.nodes.set k t).length ∧ a.target < (g.nodes.set k t).length
    rw [List.length_set]
    exact h.ends a ha
  nodup := h.nodup

/-- An index leads to the node of the identity. -/
theorem exists_node (h : g.Consistent) {id : TermId} {k : Nat} (hindex : g.index? id = some k) :
    ∃ t, g.nodes[k]? = some t ∧ t.id = id :=
  Option.map_eq_some_iff.1 ((h.index id k).1 hindex)

/-- Adding a term appends a node or puts the term at the node of its identity. -/
theorem addTerm_cases (h : g.Consistent) (t : Term) :
    (g.index? t.id = none ∧ g.addTerm t = g.appendTerm t) ∨
      ∃ k previous, g.index? t.id = some k ∧ g.nodes[k]? = some previous ∧
        previous.id = t.id ∧ g.addTerm t = g.replaceTerm k previous t := by
  unfold addTerm
  cases hindex : g.index? t.id with
  | none => exact .inl ⟨rfl, rfl⟩
  | some k =>
      obtain ⟨previous, hprevious, hid⟩ := h.exists_node hindex
      refine .inr ⟨k, previous, rfl, hprevious, hid, ?_⟩
      simp only [hprevious]

/-- A deleted term is put in the place of the live one, with the same name and glossary. -/
theorem markDeleted_cases (h : g.Consistent) (id : TermId) :
    (g.index? id = none ∧ g.markDeleted id = (false, g)) ∨
      ∃ k t, g.index? id = some k ∧ g.nodes[k]? = some t ∧ t.id = id ∧
        g.markDeleted id = (true, g.replaceTerm k t { t with deleted := true }) := by
  unfold markDeleted
  cases hindex : g.index? id with
  | none => exact .inl ⟨rfl, rfl⟩
  | some k =>
      obtain ⟨t, ht, hid⟩ := h.exists_node hindex
      refine .inr ⟨k, t, rfl, ht, hid, ?_⟩
      have hnodes : (g.nodes.modify k fun t => { t with deleted := true }) =
          g.nodes.set k { t with deleted := true } := by
        rw [List.modify_eq_set_getElem?, ht]
        rfl
      simp only [hnodes, IndexedGraph.replaceTerm, renamed, Listings.move, if_true]

end Consistent

/-! ## Writing edges -/

/-- An edge is added if its ends are known and it is not there yet. -/
theorem addEdge?_cases (g : IndexedGraph) (e : Edge) :
    (g.arcOf? e = none ∧ g.addEdge? e = none) ∨
      ∃ a, g.arcOf? e = some a ∧ (a ∈ g.arcs ∧ g.addEdge? e = some (false, g) ∨
        a ∉ g.arcs ∧ g.addEdge? e = some (true, { g with arcs := g.arcs ++ [a] })) := by
  unfold addEdge? place?
  cases harc : g.arcOf? e with
  | none => exact .inl ⟨rfl, rfl⟩
  | some a =>
      refine .inr ⟨a, rfl, ?_⟩
      by_cases hmem : a ∈ g.arcs
      · exact .inl ⟨hmem, by simp [hmem]⟩
      · exact .inr ⟨hmem, by simp [hmem]⟩

/-- An edge is removed if it is there. -/
theorem removeEdge_cases (g : IndexedGraph) (e : Edge) :
    ((∀ a, g.arcOf? e = some a → a ∉ g.arcs) ∧ g.removeEdge e = (false, g)) ∨
      ∃ a rest, g.arcOf? e = some a ∧ g.arcs.Perm (a :: rest) ∧
        g.removeEdge e = (true, { g with arcs := rest }) := by
  unfold removeEdge
  cases hplace : (g.arcOf? e).bind g.place? with
  | none =>
      refine .inl ⟨fun a ha hmem => ?_, rfl⟩
      rw [ha, Option.bind_some, place?, List.findIdx?_eq_none_iff] at hplace
      simpa using hplace a hmem
  | some k =>
      obtain ⟨a, ha, hk⟩ := Option.bind_eq_some_iff.1 hplace
      obtain ⟨hlt, heq, -⟩ := List.findIdx?_eq_some_iff_getElem.1 hk
      have hget : g.arcs[k]? = some a := by
        rw [List.getElem?_eq_getElem hlt, of_decide_eq_true heq]
      exact .inr ⟨a, _, ha, swapRemove_perm hget, rfl⟩

theorem arcOf?_eq_some {e : Edge} {a : Arc} : g.arcOf? e = some a ↔
    g.index? e.source = some a.source ∧ g.index? e.target = some a.target ∧ e.type = a.type := by
  obtain ⟨source, target, type⟩ := a
  unfold arcOf?
  cases g.index? e.source with
  | none => simp
  | some k =>
      cases g.index? e.target with
      | none => simp
      | some l => simp

theorem edge?_eq_some {e : Edge} {a : Arc} : g.edge? a = some e ↔
    g.idAt a.source = some e.source ∧ g.idAt a.target = some e.target ∧ e.type = a.type := by
  obtain ⟨source, target, type⟩ := e
  unfold edge? idAt fieldAt
  cases g.nodes[a.source]? with
  | none => simp
  | some t =>
      cases g.nodes[a.target]? with
      | none => simp
      | some u => simp [eq_comm]

namespace Consistent

/-- The arc of an edge is the one whose edge it is. -/
theorem arcOf?_iff (h : g.Consistent) {e : Edge} {a : Arc} :
    g.arcOf? e = some a ↔ g.edge? a = some e := by
  rw [arcOf?_eq_some, edge?_eq_some, h.index, h.index]

theorem lt_of_arcOf? (h : g.Consistent) {e : Edge} {a : Arc} (ha : g.arcOf? e = some a) :
    a.source < g.nodes.length ∧ a.target < g.nodes.length := by
  obtain ⟨hsource, htarget, -⟩ := arcOf?_eq_some.1 ha
  exact ⟨lt_of_fieldAt ((h.index _ _).1 hsource), lt_of_fieldAt ((h.index _ _).1 htarget)⟩

theorem addEdge? (h : g.Consistent) (e : Edge) :
    (((g.addEdge? e).map (·.2)).getD g).Consistent := by
  rcases g.addEdge?_cases e with ⟨-, hadd⟩ | ⟨a, ha, ⟨-, hadd⟩ | ⟨hmem, hadd⟩⟩
  · rw [hadd]
    exact h
  · rw [hadd]
    exact h
  · rw [hadd]
    refine ⟨h.index, h.names, h.listings, fun b hb => ?_, ?_⟩
    · rcases List.mem_append.1 hb with hb | hb
      · exact h.ends b hb
      · rw [List.mem_singleton.1 hb]
        exact h.lt_of_arcOf? ha
    · show (g.arcs ++ [a]).Nodup
      rw [← List.concat_eq_append]
      exact h.nodup.concat hmem

theorem removeEdge (h : g.Consistent) (e : Edge) : (g.removeEdge e).2.Consistent := by
  rcases g.removeEdge_cases e with ⟨-, hremove⟩ | ⟨a, rest, -, hperm, hremove⟩
  · rw [hremove]
    exact h
  · rw [hremove]
    refine ⟨h.index, h.names, h.listings, fun b hb => ?_, ?_⟩
    · exact h.ends b (hperm.mem_iff.2 (List.mem_cons_of_mem a hb))
    · exact (List.nodup_cons.1 (hperm.nodup_iff.1 h.nodup)).2

/-- Every call keeps the tables consistent. -/
theorem call (h : g.Consistent) (c : GraphCall) : (g.call c).Consistent := by
  cases c with
  | addGlossary glossary => exact ⟨h.index, h.names, h.listings, h.ends, h.nodup⟩
  | addTerm t =>
      show (g.addTerm t).Consistent
      rcases h.addTerm_cases t with ⟨hnew, hadd⟩ | ⟨k, previous, -, hprevious, hid, hadd⟩
      · rw [hadd]
        exact h.appendTerm hnew
      · rw [hadd]
        exact h.replaceTerm hprevious hid.symm
  | markDeleted id =>
      show (g.markDeleted id).2.Consistent
      rcases h.markDeleted_cases id with ⟨-, hmark⟩ | ⟨k, t, -, ht, -, hmark⟩
      · rw [hmark]
        exact h
      · rw [hmark]
        exact h.replaceTerm ht rfl
  | addEdge e => exact h.addEdge? e
  | removeEdge e => exact h.removeEdge e

end Consistent

/-- Whatever calls are made, the tables are consistent. -/
theorem consistent_runCalls (calls : List GraphCall) :
    ∀ g : IndexedGraph, g.Consistent → (g.runCalls calls).Consistent := by
  induction calls with
  | nil => intro g h; exact h
  | cons c rest ih => intro g h; exact ih (g.call c) (h.call c)

/-! ## What is found -/

/-- Members are listed by name. -/
theorem pairwise_members (g : IndexedGraph) (glossary : GlossaryId) :
    (g.members glossary).Pairwise fun t u => t.fullName ≤ u.fullName := by
  have hsorted : (g.members glossary).Pairwise fun t u => decide (t.fullName ≤ u.fullName) := by
    refine List.pairwise_mergeSort (fun t u v htu huv => ?_) (fun t u => ?_) _
    · exact decide_eq_true (String.le_trans (of_decide_eq_true htu) (of_decide_eq_true huv))
    · simpa using String.le_total t.fullName u.fullName
  exact hsorted.imp of_decide_eq_true

namespace Consistent

variable {id : TermId} {t : Term} {e : Edge} {filter : TypeFilter}

theorem term?_eq_some_iff (h : g.Consistent) :
    g.term? id = some t ↔ ∃ k : Nat, g.nodes[k]? = some t ∧ t.id = id := by
  rw [term?, Option.bind_eq_some_iff]
  constructor
  · rintro ⟨k, hindex, ht⟩
    obtain ⟨u, hu, hid⟩ := h.exists_node hindex
    obtain rfl := Option.some.inj (ht.symm.trans hu)
    exact ⟨k, ht, hid⟩
  · rintro ⟨k, ht, hid⟩
    refine ⟨k, (h.index id k).2 ?_, ht⟩
    rw [idAt, fieldAt, ht, Option.map_some, hid]

/-- No identity has two nodes. -/
theorem eq_of_id_eq (h : g.Consistent) {j k : Nat} {t u : Term} (ht : g.nodes[j]? = some t)
    (hu : g.nodes[k]? = some u) (hid : t.id = u.id) : j = k := by
  have hj : g.index? t.id = some j := (h.index _ _).2 (by rw [idAt, fieldAt, ht]; rfl)
  have hk : g.index? u.id = some k := (h.index _ _).2 (by rw [idAt, fieldAt, hu]; rfl)
  rw [hid, hk] at hj
  exact (Option.some.inj hj).symm

/-! ### Members -/

theorem mem_members (h : g.Consistent) {glossary : GlossaryId} :
    t ∈ g.members glossary ↔
      g.term? t.id = some t ∧ t.glossary = glossary ∧ t.deleted = false := by
  simp only [members, List.mem_mergeSort, List.mem_filter, List.mem_filterMap,
    Bool.not_eq_true', h.term?_eq_some_iff]
  constructor
  · rintro ⟨⟨k, hk, ht⟩, hlive⟩
    have hplace : g.glossaryAt k = some glossary := h.listings.mem_iff.1 hk
    rw [glossaryAt, fieldAt, ht] at hplace
    exact ⟨⟨k, ht, trivial⟩, Option.some.inj hplace, hlive⟩
  · rintro ⟨⟨k, ht, -⟩, hglossary, hlive⟩
    refine ⟨⟨k, h.listings.mem_iff.2 ?_, ht⟩, hlive⟩
    rw [glossaryAt, fieldAt, ht, Option.map_some, hglossary]

theorem nodup_members (h : g.Consistent) (glossary : GlossaryId) :
    (g.members glossary).Nodup := by
  refine (List.mergeSort_perm _ _).nodup_iff.2 (List.Nodup.filter _ ?_)
  refine List.Nodup.filterMap ?_ (h.listings.nodup glossary)
  intro j k u hj hk
  exact h.eq_of_id_eq hj hk rfl

/-! ### Edges -/

theorem mem_edges_iff (h : g.Consistent) :
    e ∈ g.edges ↔ ∃ a ∈ g.arcs, g.arcOf? e = some a := by
  simp only [edges, List.mem_filterMap, h.arcOf?_iff]

theorem nodup_edges (h : g.Consistent) : g.edges.Nodup := by
  refine List.Nodup.filterMap ?_ h.nodup
  intro a b e ha hb
  have harc : g.arcOf? e = some a := h.arcOf?_iff.2 ha
  rw [h.arcOf?_iff.2 hb] at harc
  exact (Option.some.inj harc).symm

/-- The edges of a term are found by its index. -/
theorem edgesFrom_eq (h : g.Consistent) (id : TermId) (filter : TypeFilter) :
    g.edgesFrom id filter =
      (g.edges.filter fun e => e.source = id && filter.accepts e.type).mergeSort
        Edge.leByType := by
  unfold edgesFrom
  cases hindex : g.index? id with
  | none =>
      have hnone : (g.edges.filter fun e => e.source = id && filter.accepts e.type) = [] := by
        refine List.filter_eq_nil_iff.2 fun e he hpasses => ?_
        obtain ⟨a, -, ha⟩ := h.mem_edges_iff.1 he
        rw [Bool.and_eq_true, decide_eq_true_eq] at hpasses
        have hsource := (arcOf?_eq_some.1 ha).1
        rw [hpasses.1, hindex] at hsource
        cases hsource
      rw [hnone, List.mergeSort_nil]
  | some k =>
      refine congrArg (List.mergeSort · Edge.leByType) ?_
      rw [edges, List.filterMap_filter, List.filter_filterMap]
      refine List.filterMap_congr fun a ha => ?_
      obtain ⟨hsource, htarget⟩ := h.ends a ha
      have hedge : g.edge? a =
          some ⟨g.nodes[a.source].id, g.nodes[a.target].id, a.type⟩ := by
        simp [edge?, hsource, htarget]
      have hid : g.index? g.nodes[a.source].id = some a.source := by
        rw [h.index, idAt, fieldAt, List.getElem?_eq_getElem hsource, Option.map_some]
      -- No two nodes share an identity, so the index and the identity choose the same arcs.
      have hleaves : g.nodes[a.source].id = id ↔ a.source = k := by
        constructor
        · rintro rfl
          exact Option.some.inj (hid.symm.trans hindex)
        · rintro rfl
          obtain ⟨t, ht, rfl⟩ := h.exists_node hindex
          rw [List.getElem?_eq_getElem hsource] at ht
          rw [Option.some.inj ht]
      rw [hedge, List.getElem?_eq_getElem htarget, Option.map_some]
      by_cases hpasses : a.source = k ∧ filter.accepts a.type = true
      · obtain ⟨hk, haccepts⟩ := hpasses
        have hid := hleaves.2 hk
        rw [hid, if_pos (by simp [hk, haccepts]), Option.filter, if_pos (by simp [haccepts])]
      · have hkept : ¬ (g.nodes[a.source].id = id ∧ filter.accepts a.type = true) := by
          rwa [hleaves]
        rw [if_neg (by simpa using hpasses), Option.filter, if_neg (by simpa using hkept)]

theorem mem_edgesFrom (h : g.Consistent) :
    e ∈ g.edgesFrom id filter ↔ e ∈ g.edges ∧ e.source = id ∧ filter.accepts e.type = true := by
  rw [h.edgesFrom_eq, List.mem_mergeSort, List.mem_filter, Bool.and_eq_true, decide_eq_true_eq]

/-- The edges of a term are listed in strict order. -/
theorem pairwise_edgesFrom (h : g.Consistent) (id : TermId) (filter : TypeFilter) :
    (g.edgesFrom id filter).Pairwise Edge.Precedes := by
  refine Edge.pairwise_precedes (fun e he => (h.mem_edgesFrom.1 he).2.1) ?_ ?_
  · rw [h.edgesFrom_eq]
    exact (List.mergeSort_perm _ _).nodup_iff.2 (h.nodup_edges.filter _)
  · rw [h.edgesFrom_eq]
    exact Edge.pairwise_mergeSort_leByType _

end Consistent

end IndexedGraph

end Thesaurus
