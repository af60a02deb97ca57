import Thesaurus.Proofs.Session.NamesAlike
import Thesaurus.Proofs.Store.Mirrored

/-!
# Names lead to current records

A name has one entry, and records may share a name. The entry may have been taken over by
another record when the first one is renamed, deleted or written again, and a record that
changes its name takes the former entry away, whichever record it leads to. Even so no entry
ever leads astray: what is found by a name has that name, and is what its identity has now.

Which record is found can be told from the history. An edit touches a name if it enters a
record under it, or writes a record of another name over one that had it. A name leads to
the identity that the last edit to touch it entered, and nowhere if that edit gave the name
up, or if there was none. The stores differ in one point only: the ordered store enters every
record that is written, the term graph those that are new or change their name.

## Main definitions

* `Edit.written?`: the record that an edit writes.
* `Edit.Enters`, `Edit.GivesUp`, `Edit.Touches`: what an edit does to the entry of a name.
* `Backend.LastEntered`: the identity that was entered last under a name.

## Main results

* `Backend.entry_editRun`: an entry after one edit.
* `Backend.entry_runEdits_iff`: an entry after a run of edits.
* `names_lead_to_current_records`: what is found by a name.
-/

namespace Thesaurus

open Store LawfulStore

section Editing

variable {σ : Type} [EditableStore σ]

/-- The identity of the record that a name leads to. -/
def Store.entry (s : σ) (name : String) : Option TermId := (byName s name).map (·.id)

/-- The record that an edit writes, unless the store refuses. -/
def Edit.written? (x : Edit) (s : σ) : Option Term :=
  match x with
  | .putGlossary _ => none
  | .putTerm t => record (x.run s) t.id
  | .deleteTerm id => record (x.run s) id

/-- An edit that writes a record of another name over one that has the name. -/
def Edit.GivesUp (x : Edit) (s : σ) (name : String) : Prop :=
  ∃ t u, x.written? s = some t ∧ record s t.id = some u ∧ u.fullName = name ∧ t.fullName ≠ name

end Editing

/-- Whether a record that is written over another one is entered under its name. -/
def Backend.enters (b : Backend) (former : Option Term) (t : Term) : Bool :=
  b = .ordered || former.all (·.fullName ≠ t.fullName)

/-- An edit that writes a record and enters it under its name. -/
def Edit.Enters (x : Edit) (b : Backend) (s : b.State) (name : String) (id : TermId) : Prop :=
  ∃ t, x.written? s = some t ∧ t.id = id ∧ t.fullName = name ∧ b.enters (record s id) t = true

/-- An edit after which a name leads to what the edit says. -/
def Edit.Touches (x : Edit) (b : Backend) (s : b.State) (name : String) : Prop :=
  x.GivesUp s name ∨ ∃ id, x.Enters b s name id

/-- The edits made, of which the last one to touch the name entered the identity. -/
def Backend.LastEntered (b : Backend) (edits : List Edit) (name : String) (id : TermId) : Prop :=
  ∃ before x after, edits = before ++ x :: after ∧
    x.Enters b (runEdits before EditableStore.empty) name id ∧
      ∀ mid y rest, after = mid ++ y :: rest →
        ¬ y.Touches b (runEdits (before ++ x :: mid) EditableStore.empty) name

/-! ## One edit -/

/-- The entry of a name after a record is written over another one. -/
def Backend.entryAfter (b : Backend) (former : Option Term) (t : Term) (name : String)
    (entry : Option TermId) : Option TermId :=
  if name = t.fullName then if b.enters former t then some t.id else entry
  else if former.any (·.fullName = name) then none
  else entry

/-- A record that is marked as deleted keeps its name, so the term graph does not enter it. -/
theorem Backend.entryAfter_asDeleted (t : Term) (name : String) (entry : Option TermId) :
    entryAfter .memory (some t) t.asDeleted name entry = entry := by
  have hkept : enters .memory (some t) t.asDeleted = false := by simp [enters, Term.asDeleted]
  unfold entryAfter
  rw [hkept]
  by_cases hname : name = t.fullName
  · exact if_pos hname
  · simp [Term.asDeleted, hname, Ne.symm hname]

namespace TermGraph

variable {g : TermGraph}

theorem entry_eq (hg : Built g) (name : String) : entry g name = g.names.get? name :=
  ((namesRecords_of_built hg).get?_eq_of_lookup (fun _ _ => id_of_term?) name).symm

theorem get?_names_addTerm (g : TermGraph) (t : Term) (name : String) :
    (g.addTerm t).names.get? name =
      Backend.entryAfter .memory (g.term? t.id) t name (g.names.get? name) := by
  rw [names_addTerm, Backend.entryAfter, Backend.enters]
  cases g.term? t.id with
  | none => simp [Table.get?_insert]
  | some previous =>
      by_cases hsame : previous.fullName = t.fullName
      · have hother : name ≠ t.fullName → t.fullName ≠ name := Ne.symm
        by_cases hname : name = t.fullName
        · simp [hsame, hname]
        · simp [hsame, hname, hother hname]
      · by_cases hname : name = t.fullName
        · simp [hsame, hname, Table.get?_insert]
        · simp [hsame, hname, Table.get?_insert, Table.get?_erase, eq_comm]

theorem entry_editRun (hg : Built g) (x : Edit) (name : String) :
    entry (x.run g) name = (x.written? g).elim (entry g name) fun t =>
      Backend.entryAfter .memory (record g t.id) t name (entry g name) := by
  have hnext : Built (x.run g) := .write (.edit x) hg
  rw [entry_eq hg, entry_eq hnext]
  cases x with
  | putGlossary glossary => rfl
  | putTerm t =>
      have hwritten : (Edit.putTerm t).written? g = some t := by
        show (g.addTerm t).term? t.id = some t
        rw [term?_addTerm, if_pos rfl]
      rw [hwritten]
      exact get?_names_addTerm g t name
  | deleteTerm id =>
      have hwritten : (Edit.deleteTerm id).written? g = (g.term? id).map Term.asDeleted := by
        show TermGraph.term? ((Edit.deleteTerm id).run g) id = _
        rw [term?_editRun, Edit.onTerms, if_pos rfl]
      have hnames : ((Edit.deleteTerm id).run g).names = g.names := names_deleteTerm id g
      rw [hwritten, hnames]
      cases hrecord : g.term? id with
      | none => rfl
      | some t =>
          -- The record keeps its name, so it is not entered again.
          have hown : record g t.asDeleted.id = some t := by
            show g.term? t.id = some t
            rw [id_of_term? hrecord, hrecord]
          rw [Option.map_some, Option.elim_some, hown]
          exact (Backend.entryAfter_asDeleted t name _).symm

end TermGraph

namespace OrderedStore

variable {s : OrderedStore}

theorem entry_eq (hs : Built s) (name : String) : entry s name = s.names.get? name :=
  ((namesRecords_of_built hs).get?_eq_of_lookup
    (fun _ _ ht => ((sound_of_built hs).id_of_term? ht).1) name).symm

theorem get?_names_putTerm (s : OrderedStore) (t : Term) (name : String) :
    (s.putTerm t).names.get? name =
      Backend.entryAfter .ordered (s.term? t.id) t name (s.names.get? name) := by
  unfold putTerm
  rw [Backend.entryAfter, Backend.enters]
  cases s.term? t.id with
  | none => simp [Table.get?_insert]
  | some previous =>
      by_cases hname : name = t.fullName
      · simp [hname, Table.get?_insert]
      · by_cases hsame : previous.fullName = t.fullName
        · simp [hname, hsame, Table.get?_insert, Ne.symm hname]
        · simp [hname, hsame, Table.get?_insert, Table.get?_erase, eq_comm]

/-- An edit that is refused writes nothing. -/
theorem written?_of_not_storable (hfiled : s.Filed) {x : Edit} (hx : x.isStorable = false) :
    x.written? s = none := by
  have hunknown : ∀ id : TermId, id.isStorable = false → record s id = none := by
    intro id hid
    rw [Option.eq_none_iff_forall_ne_some]
    intro t ht
    rw [TermId.isStorable_iff.2 (hfiled.id_of_term? ht).2] at hid
    cases hid
  cases x with
  | putGlossary glossary => rfl
  | putTerm t =>
      rw [Edit.written?, editRun_of_not_storable hfiled hx]
      exact hunknown t.id hx
  | deleteTerm id =>
      rw [Edit.written?, editRun_of_not_storable hfiled hx]
      exact hunknown id hx

theorem entry_editRun (hs : Built s) (x : Edit) (name : String) :
    entry (x.run s) name = (x.written? s).elim (entry s name) fun t =>
      Backend.entryAfter .ordered (record s t.id) t name (entry s name) := by
  have hfiled : s.Filed := sound_of_built hs
  by_cases hx : x.isStorable = true
  · have hrecord := term?_editRun hfiled hx
    have hnext : Built (x.run s) := .write (.edit x) hs
    rw [entry_eq hs, entry_eq hnext]
    cases x with
    | putGlossary glossary => rfl
    | putTerm t =>
        have hwritten : (Edit.putTerm t).written? s = some t := (hrecord t.id).trans (if_pos rfl)
        have hrun : (Edit.putTerm t).run s = s.putTerm t := by
          show ((storeTerm t).run s).2 = _
          rw [storeTerm_run, if_pos (by exact hx)]
        rw [hwritten, hrun]
        exact get?_names_putTerm s t name
    | deleteTerm id =>
        have hwritten : (Edit.deleteTerm id).written? s = (s.term? id).map Term.asDeleted :=
          (hrecord id).trans (if_pos rfl)
        have hrun : (Edit.deleteTerm id).run s = ((deleteTerm id).run s).2 := rfl
        rw [deleteTerm_run_of_filed hfiled] at hrun
        rw [hwritten, hrun]
        cases s.term? id with
        | none => rfl
        | some t => exact get?_names_putTerm s t.asDeleted name
  · rw [Bool.not_eq_true] at hx
    rw [written?_of_not_storable hfiled hx, editRun_of_not_storable hfiled hx]
    rfl

end OrderedStore

namespace Backend

variable {b : Backend} {s : b.State} {x : Edit} {name : String} {id : TermId}

theorem termByName_run (b : Backend) (s : b.State) (name : String) :
    (Store.termByName name).run s = (.ok (byName s name), s) := by
  obtain ⟨found, hrun⟩ := looks_termByName name s
  rw [hrun, byName, StoreM.answer?, hrun]
  rfl

/-- What is found by a name has the name, and is the record of its identity. -/
theorem eq_of_byName (b : Backend) {s : b.State} (hs : Built s) {t : Term}
    (ht : byName s name = some t) : t.fullName = name ∧ record s t.id = some t := by
  have hnames : ∃ names, NamesRecords names (record s) ∧
      byName s name = (names.get? name).bind (record s) := by
    cases b with
    | memory => exact ⟨_, TermGraph.namesRecords_of_built hs, rfl⟩
    | ordered => exact ⟨_, OrderedStore.namesRecords_of_built hs, rfl⟩
  obtain ⟨names, hrecords, hlookup⟩ := hnames
  rw [hlookup] at ht
  obtain ⟨id, hget, hrecord⟩ := Option.bind_eq_some_iff.1 ht
  obtain ⟨u, hu, hname⟩ := hrecords name id hget
  obtain rfl := Option.some.inj (hrecord.symm.trans hu)
  rw [record_id (sound_of_built hs) hrecord]
  exact ⟨hname, hrecord⟩

/-- What is found by a name is the record of the identity that the name leads to. -/
theorem byName_eq_some_iff (b : Backend) {s : b.State} (hs : Built s) {t : Term} :
    byName s name = some t ↔ entry s name = some t.id ∧ record s t.id = some t := by
  constructor
  · intro ht
    refine ⟨?_, (b.eq_of_byName hs ht).2⟩
    rw [entry, ht, Option.map_some]
  · rintro ⟨hentry, hrecord⟩
    obtain ⟨u, hu, hid⟩ := Option.map_eq_some_iff.1 hentry
    have hfound := (b.eq_of_byName hs hu).2
    rw [hid, hrecord] at hfound
    rw [hu, Option.some.inj hfound]

/-- The entry of a name after an edit: as the record that is written leaves it, if one is
written. -/
theorem entry_editRun (b : Backend) {s : b.State} (hs : Built s) (x : Edit) (name : String) :
    entry (x.run s) name = (x.written? s).elim (entry s name) fun t =>
      b.entryAfter (record s t.id) t name (entry s name) := by
  cases b with
  | memory => exact TermGraph.entry_editRun hs x name
  | ordered => exact OrderedStore.entry_editRun hs x name

/-- A name that an edit enters leads to what is entered. -/
theorem entry_of_enters (hs : Built s) (h : x.Enters b s name id) :
    entry (x.run s) name = some id := by
  obtain ⟨t, hwritten, rfl, rfl, henters⟩ := h
  rw [b.entry_editRun hs, hwritten, Option.elim_some, entryAfter, if_pos rfl, if_pos henters]

/-- A name that is given up leads nowhere. -/
theorem entry_of_givesUp (hs : Built s) (h : x.GivesUp s name) : entry (x.run s) name = none := by
  obtain ⟨t, u, hwritten, hformer, hname, hother⟩ := h
  rw [b.entry_editRun hs, hwritten, Option.elim_some, entryAfter, if_neg (Ne.symm hother), hformer]
  simp [hname]

/-- A name that an edit does not touch leads where it led before. -/
theorem entry_of_not_touches (hs : Built s) (h : ¬ x.Touches b s name) :
    entry (x.run s) name = entry s name := by
  rw [b.entry_editRun hs]
  cases hwritten : x.written? s with
  | none => rfl
  | some t =>
      rw [Option.elim_some, entryAfter]
      split
      · next hname =>
          have hnot : ¬ b.enters (record s t.id) t = true := fun henters =>
            h (.inr ⟨t.id, t, hwritten, rfl, hname.symm, henters⟩)
          rw [if_neg hnot]
      · next hname =>
          refine if_neg fun hformer => h (.inl ?_)
          cases hu : record s t.id with
          | none =>
              rw [hu] at hformer
              cases hformer
          | some u =>
              have hsame : u.fullName = name := by simpa [hu] using hformer
              exact ⟨t, u, hwritten, hu, hsame, Ne.symm hname⟩

/-! ## A run of edits -/

theorem runEdits_concat {σ : Type} [EditableStore σ] (edits : List Edit) (x : Edit) (s : σ) :
    runEdits (edits ++ [x]) s = x.run (runEdits edits s) := by
  rw [runEdits, List.foldl_append]
  rfl

theorem built_runEdits (b : Backend) (edits : List Edit) :
    Built (runEdits edits (EditableStore.empty : b.State)) := by
  induction edits using List.reverseRecOn with
  | nil => exact .empty
  | append_singleton edits x ih =>
      rw [runEdits_concat]
      exact .write (.edit x) ih

theorem not_lastEntered_nil (b : Backend) (name : String) (id : TermId) :
    ¬ b.LastEntered [] name id := by
  rintro ⟨before, x, after, hedits, -⟩
  simp at hedits

/-- The last edit entered the identity, or left the name alone after another one did. -/
theorem lastEntered_concat {edits : List Edit} :
    b.LastEntered (edits ++ [x]) name id ↔
      x.Enters b (runEdits edits EditableStore.empty) name id ∨
        b.LastEntered edits name id ∧
          ¬ x.Touches b (runEdits edits EditableStore.empty) name := by
  constructor
  · rintro ⟨before, y, after, hedits, henters, hkept⟩
    rcases List.eq_nil_or_concat after with rfl | ⟨front, z, rfl⟩
    · obtain ⟨rfl, hlast⟩ := List.append_inj' hedits rfl
      obtain rfl : x = y := by simpa using hlast
      exact .inl henters
    · rw [List.concat_eq_append] at hedits hkept
      have hsplit : edits ++ [x] = (before ++ y :: front) ++ [z] := by rw [hedits]; simp
      obtain ⟨rfl, hlast⟩ := List.append_inj' hsplit rfl
      obtain rfl : x = z := by simpa using hlast
      refine .inr ⟨⟨before, y, front, rfl, henters, fun mid w rest hfront => ?_⟩, ?_⟩
      · exact hkept mid w (rest ++ [x]) (by rw [hfront]; simp)
      · exact hkept front x [] rfl
  · rintro (henters | ⟨⟨before, y, after, rfl, henters, hkept⟩, hnot⟩)
    · refine ⟨edits, x, [], rfl, henters, fun mid y rest hnil => ?_⟩
      simp at hnil
    · refine ⟨before, y, after ++ [x], by simp, henters, fun mid w rest hsplit => ?_⟩
      rcases List.eq_nil_or_concat rest with rfl | ⟨front, z, rfl⟩
      · obtain ⟨rfl, hlast⟩ := List.append_inj' hsplit rfl
        obtain rfl : x = w := by simpa using hlast
        exact hnot
      · rw [List.concat_eq_append] at hsplit
        have hafter : after ++ [x] = (mid ++ w :: front) ++ [z] := by rw [hsplit]; simp
        exact hkept mid w front (List.append_inj' hafter rfl).1

/-- A name leads to the identity that was entered last under it. -/
theorem entry_runEdits_iff (b : Backend) (edits : List Edit) (name : String) (id : TermId) :
    entry (runEdits edits (EditableStore.empty : b.State)) name = some id ↔
      b.LastEntered edits name id := by
  induction edits using List.reverseRecOn with
  | nil =>
      have hempty : entry (EditableStore.empty : b.State) name = none := by cases b <;> rfl
      refine iff_of_false (fun hentry => ?_) (b.not_lastEntered_nil name id)
      rw [runEdits, List.foldl_nil, hempty] at hentry
      cases hentry
  | append_singleton edits x ih =>
      have hs := b.built_runEdits edits
      rw [runEdits_concat, lastEntered_concat, ← ih]
      constructor
      · intro hentry
        by_cases htouches : x.Touches b (runEdits edits EditableStore.empty) name
        · rcases htouches with hgiven | ⟨other, henters⟩
          · rw [entry_of_givesUp hs hgiven] at hentry
            cases hentry
          · rw [entry_of_enters hs henters] at hentry
            exact .inl (Option.some.inj hentry ▸ henters)
        · rw [entry_of_not_touches hs htouches] at hentry
          exact .inr ⟨hentry, htouches⟩
      · rintro (henters | ⟨hentry, hnot⟩)
        · exact entry_of_enters hs henters
        · rw [entry_of_not_touches hs hnot, hentry]

end Backend

/-! ## What is found -/

/-- In the graph with indexes, a name leads to a node whose term has the name, and the index
of the term's identity leads to the same node. -/
theorem IndexedGraph.exists_named (calls : List GraphCall) {name : String} {k : Nat}
    (hname : (empty.runCalls calls).names.get? name = some k) :
    ∃ t, (empty.runCalls calls).nodes[k]? = some t ∧ t.fullName = name ∧
      (empty.runCalls calls).index? t.id = some k := by
  have hg : (empty.runCalls calls).Consistent := consistent_runCalls calls _ consistent_empty
  have hm : (empty.runCalls calls).Mirrors
      (runWrites (calls.map GraphCall.write) (EditableStore.empty : TermGraph)) :=
    Mirrors.runCalls calls _ _ consistent_empty mirrors_empty
  have hbuilt : Built (runWrites (calls.map GraphCall.write) (EditableStore.empty : TermGraph)) :=
    .writes _ _ .empty
  have hlt := hg.names name k hname
  have ht := List.getElem?_eq_getElem hlt
  have hfound : byName (runWrites (calls.map GraphCall.write) (EditableStore.empty : TermGraph))
      name = some (empty.runCalls calls).nodes[k] := by
    show TermGraph.termByName? _ name = _
    rw [← hm.termByName?_eq hg, termByName?, hname, Option.bind_some, ht]
  refine ⟨_, ht, (Backend.eq_of_byName .memory hbuilt hfound).1, (hg.index _ k).2 ?_⟩
  rw [idAt, fieldAt, ht, Option.map_some]

/-- Whatever terms are written and deleted, sharing names or not, on either store: the lookup
of a name answers, and it finds a record exactly if the record has the name, is what its
identity has at the time, and is that of the identity that was entered last under the name.
In the graph with indexes the name and the identity lead to one node. -/
theorem names_lead_to_current_records :
    (∀ (b : Backend) (edits : List Edit) (name : String),
      let s : b.State := runEdits edits EditableStore.empty
      (∃ found, (Store.termByName name).run s = (.ok found, s)) ∧
        ∀ t, (Store.termByName name).run s = (.ok (some t), s) ↔
          t.fullName = name ∧ (Store.term t.id).run s = (.ok (some t), s) ∧
            b.LastEntered edits name t.id) ∧
      ∀ (calls : List GraphCall) (name : String) (k : Nat),
        let g := IndexedGraph.empty.runCalls calls
        g.names.get? name = some k →
          ∃ t, g.nodes[k]? = some t ∧ t.fullName = name ∧ g.index? t.id = some k := by
  refine ⟨fun b edits name => ?_, fun calls name k => IndexedGraph.exists_named calls⟩
  intro s
  have hs : Built s := b.built_runEdits edits
  refine ⟨⟨byName s name, b.termByName_run s name⟩, fun t => ?_⟩
  have hentry : entry s name = some t.id ↔ b.LastEntered edits name t.id :=
    b.entry_runEdits_iff edits name t.id
  rw [b.termByName_run, term_run, ← hentry]
  constructor
  · intro hrun
    have hfound : byName s name = some t := Except.ok.inj (Prod.mk.inj hrun).1
    obtain ⟨hlast, hrecord⟩ := (b.byName_eq_some_iff hs).1 hfound
    exact ⟨(b.eq_of_byName hs hfound).1, by rw [hrecord], hlast⟩
  · rintro ⟨-, hrun, hlast⟩
    have hrecord : record s t.id = some t := Except.ok.inj (Prod.mk.inj hrun).1
    rw [(b.byName_eq_some_iff hs).2 ⟨hlast, hrecord⟩]

/-- Two terms that take a name over from each other. The second is deleted at last. -/
def takeOverInTurn : List Edit :=
  let glossary : Glossary := { id := ⟨"art"⟩, name := "Art" }
  [.putTerm (.topLevel ⟨"cubism"⟩ glossary "Cubism"),
    .putTerm (.topLevel ⟨"painting"⟩ glossary "Cubism"),
    .putTerm (.topLevel ⟨"cubism"⟩ glossary "Fine art"),
    .putTerm (.topLevel ⟨"painting"⟩ glossary "Fine art"),
    .putTerm (.topLevel ⟨"cubism"⟩ glossary "Cubism"),
    .putTerm (.topLevel ⟨"cubism"⟩ glossary "Fine art"), .deleteTerm ⟨"painting"⟩]

/-- The call of the graph with indexes that an edit makes. -/
def Edit.graphCall : Edit → GraphCall
  | .putGlossary glossary => .addGlossary glossary
  | .putTerm t => .addTerm t
  | .deleteTerm id => .markDeleted id

/-- The shared name leads to the first term on the term graph and to the second, as it was
deleted, on the ordered store. In either case that is the record of the term. In the graph
with indexes it leads to the first node. -/
theorem fine_art_leads_to_current_record :
    let glossary : Glossary := { id := ⟨"art"⟩, name := "Art" }
    let cubism : Term := .topLevel ⟨"cubism"⟩ glossary "Fine art"
    let painting : Term := (Term.topLevel ⟨"painting"⟩ glossary "Fine art").asDeleted
    let g : TermGraph := runEdits takeOverInTurn EditableStore.empty
    let s : OrderedStore := runEdits takeOverInTurn EditableStore.empty
    (Store.termByName "Art.Fine art").run g = (.ok (some cubism), g) ∧
      (Store.term ⟨"cubism"⟩).run g = (.ok (some cubism), g) ∧
      Backend.LastEntered .memory takeOverInTurn "Art.Fine art" ⟨"cubism"⟩ ∧
      (Store.termByName "Art.Fine art").run s = (.ok (some painting), s) ∧
      (Store.term ⟨"painting"⟩).run s = (.ok (some painting), s) ∧
      Backend.LastEntered .ordered takeOverInTurn "Art.Fine art" ⟨"painting"⟩ ∧
      let indexed := IndexedGraph.empty.runCalls (takeOverInTurn.map Edit.graphCall)
      indexed.names.get? "Art.Fine art" = some 0 ∧
        ∃ t, indexed.nodes[0]? = some t ∧ t.fullName = "Art.Fine art" ∧
          indexed.index? t.id = some 0 := by
  intro glossary cubism painting g s
  obtain ⟨hlookups, hnodes⟩ := names_lead_to_current_records
  have hgraph : (Store.termByName "Art.Fine art").run g = (.ok (some cubism), g) := by
    have hfound : g.termByName? "Art.Fine art" = some cubism := by decide +kernel
    show (Except.ok (g.termByName? "Art.Fine art"), g) = _
    rw [hfound]
  have hordered : (Store.termByName "Art.Fine art").run s = (.ok (some painting), s) := by
    have hfound : s.termByName? "Art.Fine art" = some painting := by decide +kernel
    show (Except.ok (s.termByName? "Art.Fine art"), s) = _
    rw [hfound]
  obtain ⟨-, hterm, hlast⟩ :=
    ((hlookups .memory takeOverInTurn "Art.Fine art").2 cubism).1 hgraph
  obtain ⟨-, hterm', hlast'⟩ :=
    ((hlookups .ordered takeOverInTurn "Art.Fine art").2 painting).1 hordered
  have hentry : (IndexedGraph.empty.runCalls (takeOverInTurn.map Edit.graphCall)).names.get?
      "Art.Fine art" = some 0 := by decide +kernel
  exact ⟨hgraph, hterm, hlast, hordered, hterm', hlast', hentry, hnodes _ _ _ hentry⟩

end Thesaurus
