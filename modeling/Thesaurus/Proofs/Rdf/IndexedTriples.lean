import Thesaurus.Proofs.Rdf.TripleSet
import Thesaurus.Rdf.IndexedTriples

/-!
# Statements in the order of their insertion

However often statements are inserted, and in whatever order, the list of the set has each
of them once, where it was inserted first, and an insertion says that it is new exactly the
first time. The index agrees with the list after every insertion, so asking the index is
asking whether the statement was inserted before.

Taking the statements subject by subject is a partition that keeps their order. A subject is
told to be new by having no statements in the table; since a statement is put there as soon
as its subject is met, that is so exactly at the first statement of the subject. No subject
stands in the order twice, so no group is taken out of the table before its turn.

What is listed in order of first occurrence is determined by that. So the list and the groups
are those of the sets without an index, on which documents are written.

## Main definitions

* `IndexedTriples.Holds`: list and index after some insertions.
* `Gathering.Holds`: order and table after some statements.

## Main results

* `IndexedTriples.Holds.insert`, `IndexedTriples.holds_insertAll`: one insertion, then all.
* `Gathering.Holds.add`, `Gathering.holds_ofList`: one statement, then all.
* `statements_kept_and_grouped`: what is listed, reported and grouped.
-/

namespace Thesaurus.Rdf

/-! ## Insertions -/

namespace IndexedTriples

variable {s : IndexedTriples} {inserted : List Triple}

/-- The list and the index of a set after statements were inserted. -/
structure Holds (s : IndexedTriples) (inserted : List Triple) : Prop where
  listed : FirstSeen inserted s.toList
  indexed : ∀ t, t ∈ s.seen ↔ t ∈ inserted

theorem holds_empty : empty.Holds [] := ⟨FirstSeen.nil, fun t => by simp [empty]⟩

/-- An insertion says whether the statement was inserted before. -/
theorem Holds.insert_fst (h : s.Holds inserted) (t : Triple) :
    (s.insert t).1 = decide (t ∉ inserted) := by
  unfold insert
  by_cases ht : t ∈ inserted
  · simp [(h.indexed t).2 ht, ht]
  · simp [mt (h.indexed t).1 ht, ht]

theorem Holds.insert (h : s.Holds inserted) (t : Triple) :
    (s.insert t).2.Holds (inserted ++ [t]) := by
  have hlisted := h.listed.concat t
  unfold IndexedTriples.insert
  by_cases ht : t ∈ inserted
  · rw [if_pos ((h.indexed t).2 ht)]
    rw [if_pos ht] at hlisted
    refine ⟨hlisted, fun u => ?_⟩
    rw [h.indexed, List.mem_append, List.mem_singleton]
    exact ⟨.inl, fun hu => hu.elim id fun heq => heq ▸ ht⟩
  · rw [if_neg (mt (h.indexed t).1 ht)]
    rw [if_neg ht] at hlisted
    refine ⟨hlisted, fun u => ?_⟩
    rw [Finset.mem_insert, h.indexed, List.mem_append, List.mem_singleton, or_comm]

theorem Holds.insertAll (triples : List Triple) :
    ∀ {s : IndexedTriples} {inserted : List Triple}, s.Holds inserted →
      (s.insertAll triples).2.Holds (inserted ++ triples) := by
  induction triples with
  | nil =>
      intro s inserted h
      rw [List.append_nil]
      exact h
  | cons t rest ih =>
      intro s inserted h
      rw [← List.singleton_append, ← List.append_assoc]
      exact ih (h.insert t)

/-- The list and the index of a set that statements were inserted into. -/
theorem holds_insertAll (triples : List Triple) : (empty.insertAll triples).2.Holds triples :=
  holds_empty.insertAll triples

theorem length_insertAll_fst (triples : List Triple) :
    ∀ s : IndexedTriples, (s.insertAll triples).1.length = triples.length := by
  induction triples with
  | nil => intro s; rfl
  | cons t rest ih => intro s; exact congrArg Nat.succ (ih (s.insert t).2)

theorem insertAll_append_fst (before after : List Triple) : ∀ s : IndexedTriples,
    (s.insertAll (before ++ after)).1 =
      (s.insertAll before).1 ++ ((s.insertAll before).2.insertAll after).1 := by
  induction before with
  | nil => intro s; rfl
  | cons t rest ih => intro s; exact congrArg _ (ih (s.insert t).2)

/-- What the insertion in between says. -/
theorem getElem?_insertAll_fst (before : List Triple) (t : Triple) (after : List Triple) :
    (empty.insertAll (before ++ t :: after)).1[before.length]? = some (decide (t ∉ before)) := by
  have hlength := length_insertAll_fst before empty
  rw [insertAll_append_fst, List.getElem?_append_right (Nat.le_of_eq hlength), hlength,
    Nat.sub_self]
  exact congrArg some ((holds_insertAll before).insert_fst t)

end IndexedTriples

/-- Sets without an index list the statements in the same order. -/
theorem TripleSet.firstSeen_toList (triples : List Triple) :
    FirstSeen triples (TripleSet.ofList triples).toList := by
  induction triples using List.reverseRecOn with
  | nil => exact FirstSeen.nil
  | append_singleton triples t ih =>
      have hinsert : ofList (triples ++ [t]) = (ofList triples).insert t := by
        simp [ofList, insertAll, List.foldl_append]
      rw [hinsert, toList_insert]
      simpa [mem_ofList] using ih.concat t

/-! ## Groups -/

namespace Gathering

variable {g : Gathering} {met : List Triple}

/-- The order and the table after statements were met. -/
structure Holds (g : Gathering) (met : List Triple) : Prop where
  ordered : FirstSeen (met.map (·.subject)) g.order
  about_eq : ∀ subject, g.about subject = met.filter (·.subject == subject)

theorem about_add (g : Gathering) (t : Triple) (subject : String) :
    (g.add t).about subject =
      if subject = t.subject then g.about t.subject ++ [t] else g.about subject := by
  unfold about add
  rw [Table.get?_insert]
  split
  · rfl
  · rfl

/-- A subject has no statements yet exactly if it was not met. -/
theorem Holds.isEmpty_about (h : g.Holds met) (subject : String) :
    (g.about subject).isEmpty = true ↔ subject ∉ met.map (·.subject) := by
  rw [h.about_eq, List.isEmpty_iff, List.filter_eq_nil_iff]
  simp

theorem Holds.add (h : g.Holds met) (t : Triple) : (g.add t).Holds (met ++ [t]) := by
  refine ⟨?_, fun subject => ?_⟩
  · have hordered := h.ordered.concat t.subject
    rw [List.map_append, List.map_singleton]
    by_cases ht : t.subject ∈ met.map (·.subject)
    · rw [if_pos ht] at hordered
      have hmet : ¬ (g.about t.subject).isEmpty = true := fun hempty =>
        (h.isEmpty_about t.subject).1 hempty ht
      rwa [Gathering.add, if_neg hmet]
    · rw [if_neg ht] at hordered
      rwa [Gathering.add, if_pos ((h.isEmpty_about t.subject).2 ht)]
  · rw [about_add, List.filter_append, h.about_eq, h.about_eq]
    by_cases hsubject : subject = t.subject
    · simp [hsubject]
    · simp [hsubject, Ne.symm hsubject]

theorem holds_ofList (triples : List Triple) : (ofList triples).Holds triples := by
  induction triples using List.reverseRecOn with
  | nil => exact ⟨FirstSeen.nil, fun _ => rfl⟩
  | append_singleton triples t ih =>
      have hlast : ofList (triples ++ [t]) = (ofList triples).add t := by
        simp [ofList, List.foldl_append]
      rw [hlast]
      exact ih.add t

/-- Subjects that are all different have their statements still in the table when their
turn comes. -/
theorem takeOut_eq {order : List String} (h : order.Nodup) :
    ∀ gathered : Table (List Triple),
      takeOut gathered order = order.map fun subject => (subject, (gathered.get? subject).getD []) := by
  induction order with
  | nil => intro gathered; rfl
  | cons subject rest ih =>
      intro gathered
      obtain ⟨hsubject, hrest⟩ := List.nodup_cons.1 h
      rw [takeOut, ih hrest, List.map_cons]
      congr 1
      refine List.map_congr_left fun other hother => ?_
      have hne : other ≠ subject := fun heq => hsubject (heq ▸ hother)
      rw [Table.get?_erase, if_neg hne]

theorem Holds.groups_eq (h : g.Holds met) :
    g.groups = g.order.map fun subject => (subject, met.filter (·.subject == subject)) := by
  rw [groups, takeOut_eq h.ordered.nodup]
  refine List.map_congr_left fun subject _ => ?_
  rw [← h.about_eq, about]

end Gathering

/-- The groups of statements that are listed alike are those of a set without an index. -/
theorem TripleSet.groups_eq_gathered (s : TripleSet) :
    (Gathering.ofList s.toList).groups = s.groups := by
  have hgathered := Gathering.holds_ofList s.toList
  rw [hgathered.groups_eq, hgathered.ordered.eq (firstSeen_eraseDups _)]
  rfl

/-! ## After any insertions -/

/-- Whatever statements are inserted into an empty set, and however often: they are listed
once each, in the order of first insertion, and an insertion says that a statement is new if
it was not inserted before. Subject by subject, the subjects stand in the order in which they
are first seen, each has the statements about it in the order of the list and at least one,
and together the groups have the statements of the list. Lists, answers and groups are those
of sets without an index. -/
theorem statements_kept_and_grouped (inserted : List Triple) :
    let run := IndexedTriples.empty.insertAll inserted
    let kept := run.2.toList
    let groups := run.2.bySubject
    FirstSeen inserted kept ∧
      run.1.length = inserted.length ∧
      (∀ before t after, inserted = before ++ t :: after →
        run.1[before.length]? = some (decide (t ∉ before)) ∧
          ((TripleSet.ofList before).insertNew t).1 = decide (t ∉ before)) ∧
      FirstSeen (kept.map (·.subject)) (groups.map (·.1)) ∧
      (∀ group ∈ groups, group.2 ≠ [] ∧ group.2 = kept.filter (·.subject == group.1)) ∧
      (groups.flatMap (·.2)).Perm kept ∧
      kept = (TripleSet.ofList inserted).toList ∧
      groups = (TripleSet.ofList inserted).groups := by
  intro run kept groups
  have hlisted : FirstSeen inserted kept := (IndexedTriples.holds_insertAll inserted).listed
  have hkept : kept = (TripleSet.ofList inserted).toList :=
    hlisted.eq (TripleSet.firstSeen_toList inserted)
  have hgroups : groups = (TripleSet.ofList inserted).groups := by
    show (Gathering.ofList kept).groups = _
    rw [hkept, TripleSet.groups_eq_gathered]
  refine ⟨hlisted, IndexedTriples.length_insertAll_fst inserted _, ?_, ?_, ?_, ?_, hkept, hgroups⟩
  · rintro before t after rfl
    refine ⟨IndexedTriples.getElem?_insertAll_fst before t after, ?_⟩
    rw [TripleSet.insertNew_fst]
    simp only [TripleSet.mem_ofList]
  · rw [hkept, hgroups, TripleSet.map_fst_groups]
    exact firstSeen_eraseDups _
  · intro group hgroup
    rw [hgroups] at hgroup
    obtain ⟨subject, hsubject, rfl⟩ := List.mem_map.1 hgroup
    rw [hkept]
    exact ⟨TripleSet.about_ne_nil hsubject, rfl⟩
  · rw [hkept, hgroups]
    exact (TripleSet.ofList inserted).grouped_grouped.perm

/-- Statements about two things in turn, two of them made twice. -/
def paintingsInTurn : List Triple :=
  let cubism (predicate : String) (object : Object) : Triple := ⟨"cubism", predicate, object⟩
  let realism (predicate : String) (object : Object) : Triple := ⟨"realism", predicate, object⟩
  [realism "label" (.literal "Realism"), cubism "label" (.literal "Cubism"),
    realism "label" (.literal "Realism"), realism "label" (.iri "Realism"),
    cubism "broader" (.iri "painting"), cubism "label" (.literal "Cubism")]

/-- The third and the last statement are not new, and the groups take the others apart. -/
theorem paintings_kept_and_grouped :
    let run := IndexedTriples.empty.insertAll paintingsInTurn
    let kept := run.2.toList
    run.1[2]? = some false ∧ run.1[3]? = some true ∧ run.1[5]? = some false ∧
      run.2.bySubject.map (·.1) = ["realism", "cubism"] ∧
      ("cubism", kept.filter (·.subject == "cubism")) ∈ run.2.bySubject ∧
      kept.filter (·.subject == "cubism") ≠ [] ∧
      (run.2.bySubject.flatMap (·.2)).Perm kept := by
  intro run kept
  obtain ⟨-, -, hnew, -, hgroups, hperm, -⟩ := statements_kept_and_grouped paintingsInTurn
  have hthird := hnew (paintingsInTurn.take 2) _ (paintingsInTurn.drop 3) rfl
  have hfourth := hnew (paintingsInTurn.take 3) _ (paintingsInTurn.drop 4) rfl
  have hlast := hnew (paintingsInTurn.take 5) _ [] rfl
  have hcubism : ("cubism", kept.filter (·.subject == "cubism")) ∈ run.2.bySubject := by
    decide +kernel
  refine ⟨hthird.1, hfourth.1, hlast.1, by decide +kernel, hcubism, ?_, hperm⟩
  exact (hgroups _ hcubism).1

end Thesaurus.Rdf
