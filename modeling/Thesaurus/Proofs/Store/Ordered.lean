import Thesaurus.Proofs.Computation
import Thesaurus.Proofs.Store.Keys
import Thesaurus.Proofs.Store.Lawful

/-!
# The ordered store is a lawful store

The ordered store knows its edges by their keys only. Terms are filed under
identities without separator, and every stored key can be read, whatever is
written. As long as the stored edges are plain, no request can touch the key of
an edge it does not name.

## Main results

* `OrderedStore.writeAll_spec`: a batch on the keys is the batch on the edges.
* the instance of `LawfulStore`.
-/

namespace Thesaurus

open Store

namespace OrderedStore

variable {s : OrderedStore}

/-! ## What all calls keep -/

/-- Terms are filed under their own storable identities, and keys can be read. -/
structure Filed (s : OrderedStore) : Prop where
  terms : ∀ key t, s.terms.get? key = some t → t.id.text = key ∧ t.id.isStorable = true
  keys : ∀ key ∈ s.edgeKeys.keys, (Edge.ofKey? key).isSome = true

/-- Every key is that of a plain edge. -/
def PlainKeys (s : OrderedStore) : Prop :=
  ∀ key ∈ s.edgeKeys.keys, ∃ e : Edge, e.Plain ∧ e.key = key

/-- The second store is the first with other edges. -/
def Rewired (s s' : OrderedStore) : Prop := ∃ edgeKeys, s' = { s with edgeKeys := edgeKeys }

theorem Rewired.trans {s' s'' : OrderedStore} (h : Rewired s s') (h' : Rewired s' s'') :
    Rewired s s'' := by
  obtain ⟨edgeKeys, rfl⟩ := h
  obtain ⟨edgeKeys', rfl⟩ := h'
  exact ⟨edgeKeys', rfl⟩

theorem Rewired.sameTerms {s' : OrderedStore} (h : Rewired s s') : SameTerms s s' := by
  obtain ⟨edgeKeys, rfl⟩ := h
  exact ⟨fun _ => rfl, fun _ => rfl, fun _ => rfl, fun _ => rfl⟩

theorem record_eq (s : OrderedStore) (id : TermId) : record s id = s.term? id := rfl

theorem filed_empty : Filed empty where
  terms _ _ h := nomatch h
  keys _ h := nomatch h

theorem Filed.id_of_term? (h : Filed s) {id : TermId} {t : Term} (ht : s.term? id = some t) :
    t.id = id ∧ keySeparator ∉ id.text.toList := by
  obtain ⟨htext, hstorable⟩ := h.terms id.text t ht
  have hid : t.id = id := TermId.ext_text (congrArg String.toList htext)
  exact ⟨hid, TermId.isStorable_iff.1 (hid ▸ hstorable)⟩

theorem Filed.storable_of_known (h : Filed s) {id : TermId} (hid : Known s id) :
    keySeparator ∉ id.text.toList := by
  obtain ⟨t, ht⟩ := Option.isSome_iff_exists.1 hid
  exact (h.id_of_term? ht).2

theorem Filed.putTerm (h : Filed s) {t : Term} (ht : t.id.isStorable = true) :
    Filed (s.putTerm t) where
  terms key u hu := by
    have hget : (s.putTerm t).terms = s.terms.insert t.id.text t := rfl
    rw [hget, Table.get?_insert] at hu
    by_cases hkey : key = t.id.text
    · rw [if_pos hkey] at hu
      obtain rfl := Option.some.inj hu
      exact ⟨hkey.symm, ht⟩
    · rw [if_neg hkey] at hu
      exact h.terms key u hu
  keys := h.keys

theorem storeTerm_run (t : Term) (s : OrderedStore) :
    (storeTerm t).run s =
      if t.id.isStorable = true then (.ok (), s.putTerm t)
      else (.error (.refused (.invalidId t.id.text)), s) := by
  unfold storeTerm
  by_cases ht : t.id.isStorable = true
  · rw [if_pos ht, if_pos ht]
    rfl
  · rw [if_neg ht, if_neg ht]
    rfl

theorem deleteTerm_run (id : TermId) (s : OrderedStore) :
    (deleteTerm id).run s =
      match s.term? id with
      | some t => (storeTerm { t with deleted := true }).run s
      | none => (.error (.refused (.notFound id.text)), s) := by
  unfold deleteTerm
  rw [run_get_bind]
  cases s.term? id with
  | some t => rfl
  | none => rfl

theorem edgeKeys_storeTerm (t : Term) (s : OrderedStore) :
    ((storeTerm t).run s).2.edgeKeys = s.edgeKeys := by
  rw [storeTerm_run]
  by_cases ht : t.id.isStorable = true
  · rw [if_pos ht]
    rfl
  · rw [if_neg ht]

theorem Filed.storeTerm (h : Filed s) (t : Term) : Filed ((storeTerm t).run s).2 := by
  rw [storeTerm_run]
  by_cases ht : t.id.isStorable = true
  · rw [if_pos ht]
    exact h.putTerm ht
  · rw [if_neg ht]
    exact h

theorem edgeKeys_editRun (x : Edit) (s : OrderedStore) : (x.run s).edgeKeys = s.edgeKeys := by
  cases x with
  | putGlossary g => rfl
  | putTerm t => exact edgeKeys_storeTerm t s
  | deleteTerm id =>
      show ((deleteTerm id).run s).2.edgeKeys = s.edgeKeys
      rw [deleteTerm_run]
      cases s.term? id with
      | some t => exact edgeKeys_storeTerm _ s
      | none => rfl

theorem Filed.editRun (h : Filed s) (x : Edit) : Filed (x.run s) := by
  cases x with
  | putGlossary g => exact ⟨h.terms, h.keys⟩
  | putTerm t => exact h.storeTerm t
  | deleteTerm id =>
      show Filed ((deleteTerm id).run s).2
      rw [deleteTerm_run]
      cases s.term? id with
      | some t => exact h.storeTerm _
      | none => exact h

/-! ## Edges -/

theorem mem_links {e : Edge} :
    e ∈ links s ↔ ∃ key ∈ s.edgeKeys.keys, Edge.ofKey? key = some e := by
  show e ∈ (s.edgeKeys.keys.filterMap Edge.ofKey?).toFinset ↔ _
  rw [List.mem_toFinset, List.mem_filterMap]

/-- Where all keys are plain, an edge is stored exactly when its key is. -/
theorem PlainKeys.mem_keys_iff (h : PlainKeys s) (e : Edge) :
    e.key ∈ s.edgeKeys.keys ↔ e ∈ links s := by
  rw [mem_links]
  constructor
  · intro hkey
    obtain ⟨f, hf, hfkey⟩ := h e.key hkey
    obtain rfl := Edge.eq_of_key_eq_key hf hfkey.symm
    exact ⟨e.key, hkey, hf.ofKey?_key⟩
  · rintro ⟨key, hkey, hread⟩
    obtain ⟨f, hf, rfl⟩ := h key hkey
    rw [hf.ofKey?_key] at hread
    rwa [← Option.some.inj hread]

theorem PlainKeys.contains_eq (h : PlainKeys s) (e : Edge) :
    s.edgeKeys.contains e.key = decide (e ∈ links s) := by
  rw [Bool.eq_iff_iff, decide_eq_true_iff, ← h.mem_keys_iff, Table.mem_keys_iff]

theorem PlainKeys.editRun (h : PlainKeys s) (x : Edit) : PlainKeys (x.run s) := by
  rw [PlainKeys, edgeKeys_editRun]
  exact h

/-- A write whose edge, if it adds one, is plain does to the keys what it says of
the edges. -/
theorem write_spec (h : PlainKeys s) (op : EdgeOp) (hplain : ∀ e, op = .add e → e.Plain) :
    (s.write op).1 = op.changes (links s) ∧ links (s.write op).2 = op.result (links s) ∧
      PlainKeys (s.write op).2 ∧ Rewired s (s.write op).2 := by
  cases op with
  | add e =>
      have he := hplain e rfl
      have hplain' : PlainKeys (s.write (.add e)).2 := by
        intro key hkey
        rcases Table.mem_keys_insert.1 hkey with rfl | hkey
        · exact ⟨e, he, rfl⟩
        · exact h key hkey
      refine ⟨?_, ?_, hplain', ⟨_, rfl⟩⟩
      · show (!s.edgeKeys.contains e.key) = decide (e ∉ links s)
        rw [h.contains_eq, decide_not]
      · ext f
        rw [← hplain'.mem_keys_iff, EdgeOp.result, Finset.mem_insert, ← h.mem_keys_iff]
        show f.key ∈ (s.edgeKeys.insert e.key ()).keys ↔ _
        rw [Table.mem_keys_insert]
        constructor
        · rintro (hkey | hkey)
          · exact .inl (Edge.eq_of_key_eq_key he hkey)
          · exact .inr hkey
        · rintro (rfl | hkey)
          · exact .inl rfl
          · exact .inr hkey
  | remove e =>
      have hplain' : PlainKeys (s.write (.remove e)).2 := fun key hkey =>
        h key (Table.mem_keys_erase.1 hkey).2
      refine ⟨h.contains_eq e, ?_, hplain', ⟨_, rfl⟩⟩
      ext f
      rw [← hplain'.mem_keys_iff, EdgeOp.result, Finset.mem_erase, ← h.mem_keys_iff]
      show f.key ∈ (s.edgeKeys.erase e.key).keys ↔ _
      rw [Table.mem_keys_erase]
      constructor
      · rintro ⟨hne, hkey⟩
        exact ⟨fun hfe => hne (congrArg Edge.key hfe), hkey⟩
      · rintro ⟨hne, hkey⟩
        -- The stored edge is plain, so another edge has another key.
        obtain ⟨g, hg, hgkey⟩ := h f.key hkey
        obtain rfl := Edge.eq_of_key_eq_key hg hgkey.symm
        exact ⟨fun heq => hne (Edge.eq_of_key_eq_key hg heq.symm).symm, hkey⟩

theorem writeAll_spec (ops : List EdgeOp) :
    ∀ s : OrderedStore, PlainKeys s → (∀ e, .add e ∈ ops → e.Plain) →
      (s.writeAll ops).1 = batchFlags ops (links s) ∧
        links (s.writeAll ops).2 = batchResult ops (links s) ∧
          PlainKeys (s.writeAll ops).2 ∧ Rewired s (s.writeAll ops).2 := by
  induction ops with
  | nil => intro s h _; exact ⟨rfl, rfl, h, ⟨s.edgeKeys, rfl⟩⟩
  | cons op rest ih =>
      intro s h hplain
      obtain ⟨hflag, hlinks, h', hframe⟩ :=
        write_spec h op fun e he => hplain e (he ▸ List.mem_cons_self)
      obtain ⟨hflags, hlinks', h'', hframe'⟩ :=
        ih (s.write op).2 h' fun e he => hplain e (List.mem_cons_of_mem _ he)
      refine ⟨?_, ?_, h'', hframe.trans hframe'⟩
      · show (s.write op).1 :: ((s.write op).2.writeAll rest).1 = _
        rw [hflag, hflags, hlinks, batchFlags]
      · show links ((s.write op).2.writeAll rest).2 = _
        rw [hlinks', hlinks, batchResult]

/-- A write of any edge keeps all keys readable. -/
theorem Filed.write (h : Filed s) (op : EdgeOp) : Filed (s.write op).2 := by
  cases op with
  | add e =>
      refine ⟨h.terms, fun key hkey => ?_⟩
      rcases Table.mem_keys_insert.1 hkey with rfl | hkey
      · exact Edge.isSome_ofKey?_key e
      · exact h.keys key hkey
  | remove e => exact ⟨h.terms, fun key hkey => h.keys key (Table.mem_keys_erase.1 hkey).2⟩

theorem Filed.writeAll (ops : List EdgeOp) :
    ∀ s : OrderedStore, Filed s → Filed (s.writeAll ops).2 := by
  induction ops with
  | nil => intro s h; exact h
  | cons op rest ih => intro s h; exact ih (s.write op).2 (h.write op)

theorem addEdge_run (e : Edge) (s : OrderedStore) :
    (Store.addEdge e).run s =
      match s.edgeError? e with
      | some error => (.error (.refused error), s)
      | none => (.ok (s.write (.add e)).1, (s.write (.add e)).2) := by
  show ExceptT.run (get >>= _ : StoreM OrderedStore _) s = _
  rw [run_get_bind]
  cases s.edgeError? e with
  | some error => rfl
  | none => rfl

theorem apply_run (ops : List EdgeOp) (s : OrderedStore) :
    (Store.apply ops).run s =
      match s.firstError? ops with
      | some error => (.error (.refused error), s)
      | none => (.ok (s.writeAll ops).1, (s.writeAll ops).2) := by
  show ExceptT.run (get >>= _ : StoreM OrderedStore _) s = _
  rw [run_get_bind]
  cases s.firstError? ops with
  | some error => rfl
  | none => rfl

theorem Filed.writeRun (h : Filed s) (w : Write) : Filed (w.run s) := by
  cases w with
  | edit x => exact h.editRun x
  | addEdge e =>
      show Filed ((Store.addEdge e).run s).2
      rw [addEdge_run]
      cases s.edgeError? e with
      | some error => exact h
      | none => exact h.write (.add e)
  | removeEdge e => exact h.write (.remove e)
  | apply ops =>
      show Filed ((Store.apply ops).run s).2
      rw [apply_run]
      cases s.firstError? ops with
      | some error => exact h
      | none => exact Filed.writeAll ops s h

theorem rewired_write (s : OrderedStore) (op : EdgeOp) : Rewired s (s.write op).2 := by
  cases op with
  | add e => exact ⟨_, rfl⟩
  | remove e => exact ⟨_, rfl⟩

theorem rewired_writeAll (ops : List EdgeOp) :
    ∀ s : OrderedStore, Rewired s (s.writeAll ops).2 := by
  induction ops with
  | nil => intro s; exact ⟨s.edgeKeys, rfl⟩
  | cons op rest ih => intro s; exact (s.rewired_write op).trans (ih (s.write op).2)

/-- A call that writes no terms rewires the store. -/
theorem rewired_or_edit (w : Write) (s : OrderedStore) :
    (∃ x, w = .edit x) ∨ Rewired s (w.run s) := by
  cases w with
  | edit x => exact .inl ⟨x, rfl⟩
  | addEdge e =>
      refine .inr ?_
      show Rewired s ((Store.addEdge e).run s).2
      rw [addEdge_run]
      split
      · exact ⟨s.edgeKeys, rfl⟩
      · exact s.rewired_write (.add e)
  | removeEdge e => exact .inr ⟨_, rfl⟩
  | apply ops =>
      refine .inr ?_
      show Rewired s ((Store.apply ops).run s).2
      rw [apply_run]
      split
      · exact ⟨s.edgeKeys, rfl⟩
      · exact rewired_writeAll ops s

/-- An identity may end an edge if it can be stored and there is a term of it. -/
theorem endError?_eq_none_iff {id : TermId} :
    s.endError? id = none ↔ keySeparator ∉ id.text.toList ∧ Known s id := by
  have hknown : (s.term? id).isSome = true ↔ Known s id := Iff.rfl
  rw [← TermId.isStorable_iff, ← hknown]
  unfold endError?
  cases hstorable : id.isStorable with
  | false => simp
  | true =>
      cases s.term? id with
      | none => simp
      | some t => simp

theorem edgeError?_eq_none_iff {e : Edge} :
    s.edgeError? e = none ↔ (keySeparator ∉ e.source.text.toList ∧ Known s e.source) ∧
      keySeparator ∉ e.target.text.toList ∧ Known s e.target := by
  rw [edgeError?, Option.or_eq_none_iff, endError?_eq_none_iff, endError?_eq_none_iff]

/-- Edges between terms on file find no error. -/
theorem Filed.edgeError?_eq_none (h : Filed s) {e : Edge} (hsource : Known s e.source)
    (htarget : Known s e.target) : s.edgeError? e = none :=
  edgeError?_eq_none_iff.2
    ⟨⟨h.storable_of_known hsource, hsource⟩, h.storable_of_known htarget, htarget⟩

/-- What a scan finds: the edges whose keys begin with the stem. -/
theorem mem_edgesFrom_iff {id : TermId} {filter : TypeFilter} {e : Edge} :
    e ∈ s.edgesFrom id filter ↔
      e ∈ links s ∧ stemFor id filter <+: e.key.toList ∧ filter.accepts e.type = true := by
  rw [mem_links]
  unfold edgesFrom scan
  simp only [List.mem_filter, List.mem_filterMap, List.isPrefixOf_iff_prefix]
  constructor
  · rintro ⟨⟨key, ⟨hkey, hprefix⟩, hread⟩, haccepts⟩
    exact ⟨⟨key, hkey, hread⟩, Edge.key_of_ofKey? hread ▸ hprefix, haccepts⟩
  · rintro ⟨⟨key, hkey, hread⟩, hprefix, haccepts⟩
    exact ⟨⟨key, ⟨hkey, Edge.key_of_ofKey? hread ▸ hprefix⟩, hread⟩, haccepts⟩

/-- What a scan for the edges of a term finds, whatever the filter is. -/
theorem mem_edgesFrom {id : TermId} {filter : TypeFilter} {e : Edge}
    (hid : keySeparator ∉ id.text.toList) :
    e ∈ s.edgesFrom id filter ↔
      e ∈ links s ∧ e.source = id ∧ filter.accepts e.type = true := by
  rw [mem_edgesFrom_iff]
  refine and_congr_right fun he => and_congr_left fun haccepts => ?_
  obtain ⟨key, -, hread⟩ := mem_links.1 he
  obtain rfl := Edge.key_of_ofKey? hread
  -- A single type makes the stem longer; the filter then says nothing new.
  match filter, haccepts with
  | [], _ => exact Edge.sourceStem_prefix_iff hid hread
  | _ :: _ :: _, _ => exact Edge.sourceStem_prefix_iff hid hread
  | [only], haccepts =>
      have honly : e.type = only := by simpa [TypeFilter.accepts] using haccepts
      have htype : keySeparator ∉ only.toList := honly ▸ (Edge.toList_of_ofKey? hread).2.2
      rw [stemFor, Edge.typeStem_prefix_iff hid htype hread]
      exact and_iff_left honly

theorem nodup_allEdges (s : OrderedStore) : s.allEdges.Nodup := by
  refine List.Nodup.filterMap ?_ s.edgeKeys.nodup_keys
  intro key key' e hkey hkey'
  exact Edge.key_eq_of_ofKey? hkey hkey'

/-- A scan finds the edges in the order in which all edges stand. -/
theorem edgesFrom_sublist (s : OrderedStore) (id : TermId) (filter : TypeFilter) :
    (s.edgesFrom id filter).Sublist s.allEdges :=
  List.filter_sublist.trans (List.filter_sublist.filterMap Edge.ofKey?)

theorem nodup_edgesFrom (s : OrderedStore) (id : TermId) (filter : TypeFilter) :
    (s.edgesFrom id filter).Nodup :=
  (s.edgesFrom_sublist id filter).nodup s.nodup_allEdges

/-- All edges stand in the order of their keys. -/
theorem pairwise_key_allEdges (s : OrderedStore) : s.allEdges.Pairwise (·.key < ·.key) := by
  refine List.Pairwise.filterMap _ ?_ (List.pairwise_map.2 s.edgeKeys.increasing)
  intro key key' hlt e he f hf
  rwa [Edge.key_of_ofKey? he, Edge.key_of_ofKey? hf]

theorem pairwise_key_edgesFrom (s : OrderedStore) (id : TermId) (filter : TypeFilter) :
    (s.edgesFrom id filter).Pairwise (·.key < ·.key) :=
  s.pairwise_key_allEdges.sublist (s.edgesFrom_sublist id filter)

/-! ## The laws -/

instance : LawfulStore OrderedStore where
  Sound := Filed
  Regular := PlainKeys
  looks_term _ := StoreM.looks_view _
  looks_termByName _ := StoreM.looks_view _
  looks_glossary _ := StoreM.looks_view _
  looks_members _ := StoreM.looks_view _
  looks_edgesFrom _ _ := StoreM.looks_view _
  looks_usage := StoreM.looks_view _
  isLive_run s id := by
    show (Except.ok ((s.term? id).any fun t => !t.deleted), s) = _
    rw [Term.any_not_deleted]
    rfl
  sound_empty := filed_empty
  links_empty := rfl
  sound_write w h := h.writeRun w
  regular_of_links_eq_empty {s} h hempty := by
    intro key hkey
    obtain ⟨e, he⟩ := Option.isSome_iff_exists.1 (h.keys key hkey)
    have hmem : e ∈ links s := mem_links.2 ⟨key, hkey, he⟩
    rw [hempty] at hmem
    exact absurd hmem (Finset.notMem_empty e)
  links_edit {s} x := by
    ext e
    rw [mem_links, mem_links, edgeKeys_editRun]
  regular_edit x h := h.editRun x
  record_id h ht := (h.id_of_term? ht).1
  mem_leaving h hid _ := mem_edgesFrom (h.storable_of_known hid)
  nodup_leaving id filter _ := nodup_edgesFrom _ id filter
  apply_run {s ops} h hplain hops := by
    have hadd : ∀ e, .add e ∈ ops → e.Plain ∧ s.edgeError? e = none := by
      intro e he
      obtain ⟨hsource, htarget, htype⟩ := hops e he
      exact ⟨⟨h.storable_of_known hsource, h.storable_of_known htarget,
        keySeparator_notMem_of_isTypeName htype⟩, h.edgeError?_eq_none hsource htarget⟩
    have hfirst : s.firstError? ops = none := by
      refine List.findSome?_eq_none_iff.2 fun op hop => ?_
      cases op with
      | add e => exact (hadd e hop).2
      | remove e => rfl
    obtain ⟨hflags, hlinks, hplain', hframe⟩ :=
      writeAll_spec ops s hplain fun e he => (hadd e he).1
    refine ⟨(s.writeAll ops).2, ?_, hlinks, hplain', hframe.sameTerms⟩
    rw [apply_run, hfirst, ← hflags]

end OrderedStore

end Thesaurus
