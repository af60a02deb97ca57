import Mathlib.Data.List.Induction
import Mathlib.Data.List.Nodup
import Thesaurus.Rdf.TripleSet

/-!
# Sets of statements by subject

The statements of a set, taken subject by subject, are the statements of the set:
the subjects stand in the order in which they are first seen, the statements of each
in the order of the set, and none is lost or comes twice. The same goes for any list
whose items are taken by keys that are all different.

## Main definitions

* `Triple.iris`, `TripleSet.iris`: the IRIs in statements.
* `FirstSeen`: the items of a sequence, each once, in the order of their first occurrence.
* `Grouped`: a list of statements in groups.
* `TripleSet.grouped`: the statements of a set, subject by subject.

## Main results

* `FirstSeen.concat`, `FirstSeen.eq`: one more item, and that the sequence determines the rest.
* `filter_flatMap_filter`, `flatMap_filter_perm`: items taken key by key.
* `TripleSet.grouped_grouped`: the statements of a set, grouped.
-/

namespace Thesaurus.Rdf

/-- The IRIs in a statement. -/
def Triple.iris (t : Triple) : List String :=
  [t.subject, t.predicate] ++
    match t.object with
    | .iri iri => [iri]
    | .literal _ => []

namespace Triple

theorem subject_mem_iris (t : Triple) : t.subject ∈ t.iris := by simp [iris]

theorem predicate_mem_iris (t : Triple) : t.predicate ∈ t.iris := by simp [iris]

theorem object_mem_iris {t : Triple} {iri : String} (h : t.object = .iri iri) :
    iri ∈ t.iris := by simp [iris, h]

end Triple

/-! ## First occurrences -/

/-- The items of a sequence, each once, in the order in which they first occur. -/
structure FirstSeen {α : Type} [DecidableEq α] (sequence items : List α) : Prop where
  nodup : items.Nodup
  mem_iff : ∀ a, a ∈ items ↔ a ∈ sequence
  ordered : items.Pairwise fun a b => sequence.idxOf a < sequence.idxOf b

section FirstSeen

variable {α : Type} [DecidableEq α] {sequence items items' : List α}

namespace FirstSeen

theorem nil : FirstSeen ([] : List α) [] := ⟨List.nodup_nil, fun _ => Iff.rfl, List.Pairwise.nil⟩

/-- An item that comes last is listed last, unless it occurred before. -/
theorem concat (h : FirstSeen sequence items) (a : α) :
    FirstSeen (sequence ++ [a]) (if a ∈ sequence then items else items ++ [a]) := by
  have hplace : ∀ b ∈ items, (sequence ++ [a]).idxOf b = sequence.idxOf b :=
    fun b hb => List.idxOf_append_of_mem ((h.mem_iff b).1 hb)
  have hordered : items.Pairwise fun b c =>
      (sequence ++ [a]).idxOf b < (sequence ++ [a]).idxOf c := by
    refine h.ordered.imp_of_mem fun hb hc hlt => ?_
    rwa [hplace _ hb, hplace _ hc]
  by_cases ha : a ∈ sequence
  · rw [if_pos ha]
    refine ⟨h.nodup, fun b => ?_, hordered⟩
    rw [h.mem_iff, List.mem_append, List.mem_singleton]
    exact ⟨.inl, fun hb => hb.elim id fun heq => heq ▸ ha⟩
  · rw [if_neg ha]
    have hnew : a ∉ items := fun hmem => ha ((h.mem_iff a).1 hmem)
    refine ⟨h.nodup.append (List.nodup_singleton a) (by simpa using hnew), fun b => ?_, ?_⟩
    · rw [List.mem_append, List.mem_append, h.mem_iff]
    · rw [List.pairwise_append]
      refine ⟨hordered, List.pairwise_singleton _ _, fun b hb c hc => ?_⟩
      rw [List.mem_singleton.1 hc, hplace b hb, List.idxOf_append_of_notMem ha]
      have hlt := List.idxOf_lt_length_of_mem ((h.mem_iff b).1 hb)
      omega

/-- The items and their order are determined by the sequence. -/
theorem eq (h : FirstSeen sequence items) (h' : FirstSeen sequence items') : items = items' := by
  have hperm : items.Perm items' := by
    refine (List.perm_ext_iff_of_nodup h.nodup h'.nodup).2 fun a => ?_
    rw [h.mem_iff, h'.mem_iff]
  refine hperm.eq_of_pairwise (fun a b _ _ hab hba => ?_) h.ordered h'.ordered
  exact absurd hab (Nat.lt_asymm hba)

end FirstSeen

/-- What is left of a list without what is there already stands in the order of the first
places. -/
theorem firstSeen_eraseDups (sequence : List α) : FirstSeen sequence sequence.eraseDups := by
  induction sequence using List.reverseRecOn with
  | nil => exact FirstSeen.nil
  | append_singleton sequence a ih =>
      have hconcat := ih.concat a
      rw [List.eraseDups_append]
      by_cases ha : a ∈ sequence
      · simpa [List.removeAll, ha] using hconcat
      · simpa [List.removeAll, ha, List.eraseDups_cons] using hconcat

end FirstSeen

/-! ## Items by their keys -/

section Keys

variable {α : Type} {keys : List String} {items : List α}

/-- Of several keys one alone has items. -/
theorem flatMap_eq_of_only {f : String → List α} {key : String} (hkeys : keys.Nodup)
    (hkey : key ∈ keys) (h : ∀ k, k ≠ key → f k = []) : keys.flatMap f = f key := by
  induction keys with
  | nil => exact absurd hkey List.not_mem_nil
  | cons k others ih =>
      obtain ⟨hk, hothers⟩ := List.nodup_cons.1 hkeys
      rw [List.flatMap_cons]
      by_cases heq : k = key
      · have hrest : others.flatMap f = [] := List.flatMap_eq_nil_iff.2 fun k' hk' =>
          h k' fun heq' => hk (heq.trans heq'.symm ▸ hk')
        rw [hrest, List.append_nil, heq]
      · have hmem : key ∈ others := (List.mem_cons.1 hkey).resolve_left fun h => heq h.symm
        rw [h k heq, List.nil_append]
        exact ih hothers hmem

/-- Items that are taken key by key keep their order under each key. -/
theorem filter_flatMap_filter (key : α → String) (hkeys : keys.Nodup)
    (h : ∀ a ∈ items, key a ∈ keys) (k : String) :
    (keys.flatMap fun k => items.filter (key · == k)).filter (key · == k) =
      items.filter (key · == k) := by
  have hother : ∀ other, other ≠ k →
      (items.filter (key · == other)).filter (key · == k) = [] := by
    intro other hne
    refine List.filter_eq_nil_iff.2 fun a ha => ?_
    have hkey : key a = other := by simpa using (List.mem_filter.1 ha).2
    simpa [hkey] using hne
  rw [List.filter_flatMap]
  by_cases hk : k ∈ keys
  · rw [flatMap_eq_of_only hkeys hk hother, List.filter_filter]
    simp
  · have hnone : items.filter (key · == k) = [] := by
      refine List.filter_eq_nil_iff.2 fun a ha hkey => hk ?_
      rw [← eq_of_beq hkey]
      exact h a ha
    rw [hnone, List.flatMap_eq_nil_iff]
    exact fun other hmem => hother other fun heq => hk (heq ▸ hmem)

/-- Lists that have the same items under each key have the same items. -/
theorem perm_of_filter_eq [DecidableEq α] {items' : List α} (key : α → String)
    (h : ∀ k, items.filter (key · == k) = items'.filter (key · == k)) : items.Perm items' := by
  refine List.perm_iff_count.2 fun a => ?_
  have hkey : (key a == key a) = true := beq_self_eq_true (key a)
  have hcount : ∀ l : List α, (l.filter (key · == key a)).count a = l.count a :=
    fun l => List.count_filter hkey
  rw [← hcount items, h, hcount]

/-- Items that are taken key by key are all taken, each once. -/
theorem flatMap_filter_perm [DecidableEq α] (key : α → String) (hkeys : keys.Nodup)
    (h : ∀ a ∈ items, key a ∈ keys) :
    (keys.flatMap fun k => items.filter (key · == k)).Perm items :=
  perm_of_filter_eq key (filter_flatMap_filter key hkeys h)

end Keys

/-! ## Statements by their subjects -/

/-- The statements of a list in groups: the subjects in the order in which they are
first seen, and the statements of each in the order of the list. -/
structure Grouped (statements grouped : List Triple) : Prop where
  filter_eq : ∀ subject,
    grouped.filter (·.subject == subject) = statements.filter (·.subject == subject)
  firstSeen : grouped.Pairwise fun t u =>
    (statements.map (·.subject)).idxOf t.subject ≤ (statements.map (·.subject)).idxOf u.subject

theorem Grouped.perm {statements grouped : List Triple} (h : Grouped statements grouped) :
    grouped.Perm statements := perm_of_filter_eq (·.subject) h.filter_eq

namespace TripleSet

variable {s : TripleSet} {t : Triple} {subject : String}

/-- The IRIs in the statements of a set. -/
def iris (s : TripleSet) : List String := s.toList.flatMap Triple.iris

/-- The statements of a set, subject by subject. -/
def grouped (s : TripleSet) : List Triple := s.groups.flatMap (·.2)

theorem mem_insertAll {u : Triple} (triples : List Triple) :
    ∀ s : TripleSet, u ∈ (s.insertAll triples).toList ↔ u ∈ s.toList ∨ u ∈ triples := by
  induction triples with
  | nil => intro s; simp [insertAll]
  | cons t rest ih =>
      intro s
      have hinsert : u ∈ (s.insert t).toList ↔ u ∈ s.toList ∨ u = t := by
        rw [toList_insert]
        by_cases ht : t ∈ s.toList
        · rw [if_pos ht]
          exact ⟨.inl, fun h => h.elim id fun heq => heq ▸ ht⟩
        · rw [if_neg ht, List.mem_append, List.mem_singleton]
      show u ∈ ((s.insert t).insertAll rest).toList ↔ _
      rw [ih, hinsert, List.mem_cons, or_assoc]

/-- The set of a list has the statements of the list. -/
theorem mem_ofList {triples : List Triple} : t ∈ (ofList triples).toList ↔ t ∈ triples := by
  rw [ofList, mem_insertAll]
  simp [empty]

theorem mem_iris_of_mem {iri : String} (ht : t ∈ s.toList) (h : iri ∈ t.iris) : iri ∈ s.iris :=
  List.mem_flatMap.2 ⟨t, ht, h⟩

theorem nodup_subjects (s : TripleSet) : s.subjects.Nodup := (firstSeen_eraseDups _).nodup

theorem mem_subjects : subject ∈ s.subjects ↔ ∃ t ∈ s.toList, t.subject = subject := by
  rw [subjects, List.mem_eraseDups, List.mem_map]

theorem subject_mem_subjects (ht : t ∈ s.toList) : t.subject ∈ s.subjects :=
  mem_subjects.2 ⟨t, ht, rfl⟩

theorem mem_about : t ∈ s.about subject ↔ t ∈ s.toList ∧ t.subject = subject := by
  rw [about, List.mem_filter, beq_iff_eq]

/-- The statements in the groups are those of the set. -/
theorem mem_groups_iff : (∃ g ∈ s.groups, t ∈ g.2) ↔ t ∈ s.toList := by
  constructor
  · rintro ⟨g, hg, ht⟩
    obtain ⟨subject, -, rfl⟩ := List.mem_map.1 hg
    exact (mem_about.1 ht).1
  · intro ht
    exact ⟨_, List.mem_map.2 ⟨t.subject, subject_mem_subjects ht, rfl⟩, mem_about.2 ⟨ht, rfl⟩⟩

theorem about_ne_nil (h : subject ∈ s.subjects) : s.about subject ≠ [] := by
  obtain ⟨t, ht, hsubject⟩ := mem_subjects.1 h
  exact List.ne_nil_of_mem (mem_about.2 ⟨ht, hsubject⟩)

theorem map_fst_groups (s : TripleSet) : s.groups.map (·.1) = s.subjects := by
  rw [groups, List.map_map]
  exact List.map_id _

theorem grouped_eq (s : TripleSet) : s.grouped = s.subjects.flatMap s.about := by
  rw [grouped, groups, List.flatMap_map]

/-- The statements of a set, subject by subject, are its statements in groups. -/
theorem grouped_grouped (s : TripleSet) : Grouped s.toList s.grouped where
  filter_eq subject := by
    rw [grouped_eq]
    exact filter_flatMap_filter (·.subject) s.nodup_subjects
      (fun t ht => subject_mem_subjects ht) subject
  firstSeen := by
    rw [grouped_eq, List.pairwise_flatMap]
    refine ⟨fun subject _ => ?_, ?_⟩
    · refine List.pairwise_of_forall_mem_list fun t ht u hu => ?_
      have hsame : t.subject = u.subject := (mem_about.1 ht).2.trans (mem_about.1 hu).2.symm
      exact Nat.le_of_eq (congrArg (s.toList.map (·.subject)).idxOf hsame)
    · refine ((firstSeen_eraseDups _).ordered).imp fun {a b} hlt t ht u hu => ?_
      rw [(mem_about.1 ht).2, (mem_about.1 hu).2]
      exact Nat.le_of_lt hlt

end TripleSet

end Thesaurus.Rdf
