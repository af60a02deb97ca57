import Mathlib.Data.List.Perm.Basic
import Thesaurus.Proofs.Rdf.TripleSet
import Thesaurus.Proofs.Rdf.Vocabulary
import Thesaurus.Proofs.Store.Keys
import Thesaurus.Rdf.Documents

/-!
# Nodes read back

A reader of JSON-LD nodes, and what it finds in the nodes of a set. The fields of a
node are sorted by name, so a node is a table; under each name it holds the
entries made for that name, in their order. Reading the fields therefore gives the
statements of the subject name by name, which changes only their order.

Short forms have to be told from IRIs: an IRI that looks like a short form would be
read as another one. And a predicate must not have one of the names that nodes use
for themselves, all of which begin with an at sign.

## Main definitions

* `JsonLd.read?`: the nodes of a document, each a subject with its statements.
* `JsonLd.table`: the fields of a node as a table.

## Main results

* `JsonLd.get?_table`: what a node holds under each name.
* `nodes_read_back`: the nodes of a document are read back as the set.
-/

namespace Thesaurus.Rdf.JsonLd

/-! ## The reader -/

/-- The text that a value is. -/
def text? : Json.Value → Option String
  | .string text => some text
  | _ => none

/-- The object that an item is. -/
def object? : Json.Value → Option Object
  | .object [(key, .string text)] =>
    if key = "@id" then some (.iri (expand text))
    else if key = "@value" then some (.literal text)
    else none
  | _ => none

/-- The statement that an item of a field makes. -/
def statement? (subject key : String) (item : Json.Value) : Option Triple :=
  if key = "@type" then
    (text? item).map fun iri =>
      { subject := subject, predicate := rdfType, object := .iri (expand iri) }
  else
    (object? item).map fun object =>
      { subject := subject, predicate := expand key, object := object }

/-- The statements that a field makes: one for each item, and none for the field
that names the subject. -/
def fieldStatements? (subject : String) (field : String × Json.Value) : Option (List Triple) :=
  if field.1 = "@id" then some []
  else
    match field.2 with
    | .array items => items.mapM (statement? subject field.1)
    | _ => none

/-- The subject of a node with its statements. -/
def node? : Json.Value → Option (String × List Triple)
  | .object fields => do
    let id ← Json.Value.field? "@id" (.object fields)
    let subject := expand (← text? id)
    let statements ← fields.mapM (fieldStatements? subject)
    return (subject, statements.flatten)
  | _ => none

/-- The nodes of a document. -/
def read? (document : Json.Value) : Option (List (String × List Triple)) :=
  match document.field? "@graph" with
  | some (.array nodes) => nodes.mapM node?
  | _ => none

/-! ## Nodes as tables -/

/-- Adds an entry to the array of its field. -/
def push (t : Table Json.Value) (e : String × Json.Value) : Table Json.Value :=
  match t.get? e.1 with
  | some (.array items) => t.insert e.1 (.array (items ++ [e.2]))
  | _ => t.insert e.1 (.array [e.2])

/-- The fields of a node: its name, and an array for each name of an entry. -/
def table (id : Json.Value) (entries : List (String × Json.Value)) : Table Json.Value :=
  entries.foldl push (Table.empty.insert "@id" id)

/-- The items of the entries with a name. -/
def itemsAt (entries : List (String × Json.Value)) (key : String) : List Json.Value :=
  (entries.filter (·.1 == key)).map (·.2)

theorem insertField_eq (key : String) (value : Json.Value)
    (fields : List (String × Json.Value)) :
    Json.insertField key value fields = insertEntry key value fields := by
  induction fields with
  | nil => rfl
  | cons f rest ih => rw [Json.insertField, insertEntry, ih]

theorem lookup_entries (t : Table Json.Value) (key : String) :
    t.entries.lookup key = t.get? key := by
  rw [Table.get?]
  induction t.entries with
  | nil => rfl
  | cons f rest ih =>
      rw [List.lookup_cons, List.find?_cons, ih, BEq.comm]
      cases f.1 == key <;> rfl

theorem addEntry_entries (t : Table Json.Value) (e : String × Json.Value) :
    addEntry t.entries e = (push t e).entries := by
  unfold push addEntry
  rw [lookup_entries]
  cases t.get? e.1 with
  | none => exact insertField_eq _ _ _
  | some value => cases value <;> exact insertField_eq _ _ _

theorem entries_table (id : Json.Value) (entries : List (String × Json.Value)) :
    (table id entries).entries = entries.foldl addEntry [("@id", id)] := by
  unfold table
  rw [← List.foldl_hom Table.entries addEntry_entries]
  rfl

theorem node_eq (subject : String) (statements : List Triple) :
    node subject statements =
      .object (table (.string (iriText subject)) (statements.map entry)).entries := by
  rw [node, entries_table]

theorem get?_push {t : Table Json.Value} {e : String × Json.Value} {items : List Json.Value}
    (h : t.get? e.1 = if items = [] then none else some (.array items)) (key : String) :
    (push t e).get? key = if key = e.1 then some (.array (items ++ [e.2])) else t.get? key := by
  unfold push
  by_cases hitems : items = []
  · rw [if_pos hitems] at h
    simp [h, hitems, Table.get?_insert]
  · rw [if_neg hitems] at h
    simp [h, Table.get?_insert]

/-- A node holds its own name, and under any other the items of the entries with
that name. -/
theorem get?_table (id : Json.Value) {entries : List (String × Json.Value)}
    (h : ∀ e ∈ entries, e.1 ≠ "@id") (key : String) :
    (table id entries).get? key =
      if key = "@id" then some id
      else if itemsAt entries key = [] then none
      else some (.array (itemsAt entries key)) := by
  -- entries are added at the end: the last one goes to its own field and no other
  induction entries using List.reverseRecOn generalizing key with
  | nil => simp [table, itemsAt, Table.get?_insert]
  | append_singleton entries e ih =>
      have hbefore : ∀ f ∈ entries, f.1 ≠ "@id" := fun f hf => h f (by simp [hf])
      have hid : e.1 ≠ "@id" := h e (by simp)
      have htable : table id (entries ++ [e]) = push (table id entries) e := by
        simp [table, List.foldl_append]
      have hheld := ih hbefore e.1
      rw [if_neg hid] at hheld
      rw [htable, get?_push hheld key, ih hbefore key]
      by_cases hkey : key = e.1
      · simp [hkey, hid, itemsAt]
      · have hother : itemsAt (entries ++ [e]) key = itemsAt entries key := by
          simp [itemsAt, Ne.symm hkey]
        rw [if_neg hkey, hother]

/-! ## Entries -/

theorem expand_iriText {iri : String} (h : expand iri = iri) : expand (iriText iri) = iri := by
  cases hcompact : compact? iri with
  | none => rw [iriText, hcompact, Option.getD_none, h]
  | some shortened => rw [iriText, hcompact, Option.getD_some, expand_of_compact? hcompact]

/-- What a statement needs to be told from others in a node: its IRIs are none that
look like short forms, and its predicate has no name that nodes use. -/
structure Legible (t : Triple) : Prop where
  expand_eq : ∀ iri ∈ t.iris, expand iri = iri
  plain : t.predicate.toList.head? ≠ some '@'

variable {t : Triple}

theorem Legible.iriText_ne (h : Legible t) {key : String} (hkey : expand key = key)
    (hat : key.toList.head? = some '@') : iriText t.predicate ≠ key := by
  intro heq
  have hpredicate := expand_iriText (h.expand_eq _ t.predicate_mem_iris)
  rw [heq, hkey] at hpredicate
  exact h.plain (hpredicate ▸ hat)

theorem Legible.entry_ne_id (h : Legible t) : (entry t).1 ≠ "@id" := by
  have hne : iriText t.predicate ≠ "@id" := h.iriText_ne (by decide) (by decide)
  unfold entry
  cases t.object with
  | literal text => exact hne
  | iri iri =>
      by_cases htype : t.predicate = rdfType
      · simp [htype]
      · simpa [htype] using hne

theorem entries_ne_id {statements : List Triple} (h : ∀ t ∈ statements, Legible t) :
    ∀ e ∈ statements.map entry, e.1 ≠ "@id" := by
  intro e he
  obtain ⟨t, ht, rfl⟩ := List.mem_map.1 he
  exact (h t ht).entry_ne_id

/-- The entry of a statement is read as the statement. -/
theorem Legible.statement?_entry (h : Legible t) :
    statement? t.subject (entry t).1 (entry t).2 = some t := by
  have hpredicate := expand_iriText (h.expand_eq _ t.predicate_mem_iris)
  have hne : iriText t.predicate ≠ "@type" := h.iriText_ne (by decide) (by decide)
  obtain ⟨subject, predicate, object⟩ := t
  cases object with
  | literal text => simpa [entry, statement?, object?, hne] using hpredicate
  | iri iri =>
      have hiri := expand_iriText (h.expand_eq iri (Triple.object_mem_iris rfl))
      by_cases htype : predicate = rdfType
      · simp [entry, statement?, text?, htype, hiri]
      · simpa [entry, statement?, object?, htype, hne, hiri] using hpredicate

/-! ## Reading -/

theorem mapM_eq_some {α β : Type} {f : α → Option β} {g : α → β} (items : List α)
    (h : ∀ a ∈ items, f a = some (g a)) : items.mapM f = some (items.map g) := by
  induction items with
  | nil => rfl
  | cons a rest ih =>
      rw [List.mapM_cons, h a (by simp), ih fun b hb => h b (by simp [hb])]
      rfl

/-- The statements of a subject, name by name. -/
def byField (subject : String) (statements : List Triple) : List Triple :=
  (table (.string (iriText subject)) (statements.map entry)).keys.flatMap fun key =>
    statements.filter fun t => (entry t).1 == key

theorem byField_perm (subject : String) {statements : List Triple}
    (h : ∀ t ∈ statements, Legible t) : (byField subject statements).Perm statements := by
  refine flatMap_filter_perm (fun t => (entry t).1) (Table.nodup_keys _) fun t ht => ?_
  have hitems : itemsAt (statements.map entry) (entry t).1 ≠ [] := by
    have hitem : (entry t).2 ∈ itemsAt (statements.map entry) (entry t).1 := by
      refine List.mem_map.2 ⟨entry t, ?_, rfl⟩
      simpa using ⟨t, ht, rfl⟩
    exact List.ne_nil_of_mem hitem
  rw [Table.mem_keys_iff, Table.contains, get?_table _ (entries_ne_id h),
    if_neg (h t ht).entry_ne_id, if_neg hitems]
  rfl

/-- A field of a node is read as the statements whose entries have its name. -/
theorem fieldStatements?_eq {subject : String} {statements : List Triple}
    (hsubject : ∀ t ∈ statements, t.subject = subject) (h : ∀ t ∈ statements, Legible t)
    {field : String × Json.Value} {id : Json.Value}
    (hfield : field ∈ (table id (statements.map entry)).entries) :
    fieldStatements? subject field =
      some (statements.filter fun t => (entry t).1 == field.1) := by
  obtain ⟨key, value⟩ := field
  have hvalue := Table.mem_entries_iff.1 hfield
  rw [get?_table id (entries_ne_id h)] at hvalue
  unfold fieldStatements?
  by_cases hid : key = "@id"
  · -- no statement has an entry under the name of the node itself
    have hnone : (statements.filter fun t => (entry t).1 == key) = [] := by
      refine List.filter_eq_nil_iff.2 fun t ht => ?_
      simpa [hid] using (h t ht).entry_ne_id
    rw [if_pos hid, hnone]
  · rw [if_neg hid] at hvalue
    split at hvalue
    · exact absurd hvalue (by simp)
    · rw [if_neg hid, ← Option.some.inj hvalue]
      have hitems : itemsAt (statements.map entry) key =
          (statements.filter fun t => (entry t).1 == key).map fun t => (entry t).2 := by
        simp [itemsAt, List.filter_map, Function.comp_def]
      have hread : ∀ t ∈ statements.filter (fun t => (entry t).1 == key),
          statement? subject key (entry t).2 = some t := by
        intro t ht
        obtain ⟨hmem, hkey⟩ := List.mem_filter.1 ht
        rw [← hsubject t hmem, ← eq_of_beq hkey]
        exact (h t hmem).statement?_entry
      simp only [hitems]
      rw [List.mapM_map]
      exact (mapM_eq_some _ hread).trans (congrArg some (List.map_id _))

/-- The node of a subject is read as its statements, name by name. -/
theorem node?_node {subject : String} {statements : List Triple}
    (hexpand : expand subject = subject) (hsubject : ∀ t ∈ statements, t.subject = subject)
    (h : ∀ t ∈ statements, Legible t) :
    node? (node subject statements) = some (subject, byField subject statements) := by
  let fields := table (.string (iriText subject)) (statements.map entry)
  have hid : Json.Value.field? "@id" (.object fields.entries) =
      some (.string (iriText subject)) := by
    have hget := get?_table (.string (iriText subject)) (entries_ne_id h) "@id"
    rwa [if_pos rfl] at hget
  have hfields := mapM_eq_some fields.entries fun field hfield =>
    fieldStatements?_eq hsubject h hfield
  have hflatten : (fields.entries.map fun field =>
      statements.filter fun t => (entry t).1 == field.1).flatten = byField subject statements := by
    rw [byField, Table.keys, List.flatMap_map, ← List.flatMap_def]
  rw [node_eq, node?, hid]
  simp only [Option.bind_eq_bind, Option.bind_some, text?, expand_iriText hexpand]
  rw [hfields, Option.bind_some, hflatten]
  rfl

/-- The nodes of a document. -/
theorem read?_document {s : TripleSet} (h : ∀ t ∈ s.toList, Legible t) :
    read? (document s) = some (s.subjects.map fun x => (x, byField x (s.about x))) := by
  have hnodes : ∀ g ∈ s.groups, node? (node g.1 g.2) = some (g.1, byField g.1 g.2) := by
    intro g hg
    obtain ⟨subject, hsubject, rfl⟩ := List.mem_map.1 hg
    obtain ⟨t, ht, htsubject⟩ := TripleSet.mem_subjects.1 hsubject
    have hexpand : expand subject = subject := by
      rw [← htsubject]
      exact (h t ht).expand_eq _ t.subject_mem_iris
    exact node?_node hexpand (fun u hu => (TripleSet.mem_about.1 hu).2)
      fun u hu => h u (TripleSet.mem_about.1 hu).1
  have hgraph : (document s).field? "@graph" =
      some (.array (s.groups.map fun g => node g.1 g.2)) := by
    simp [document, Json.Value.field?]
  rw [read?, hgraph]
  show (s.groups.map fun g => node g.1 g.2).mapM node? = _
  rw [List.mapM_map]
  refine (mapM_eq_some s.groups hnodes).trans ?_
  rw [TripleSet.groups, List.map_map]
  rfl

/-- The nodes of a document are read back as the set: one node for each subject, with
the statements about it, and together all statements of the set. -/
theorem nodes_read_back (s : TripleSet) (hexpand : ∀ iri ∈ s.iris, expand iri = iri)
    (hplain : ∀ t ∈ s.toList, t.predicate.toList.head? ≠ some '@') :
    ∃ nodes, read? (document s) = some nodes ∧
      (nodes.map (·.1)).Nodup ∧
      (∀ subject, subject ∈ nodes.map (·.1) ↔ ∃ t ∈ s.toList, t.subject = subject) ∧
      (∀ n ∈ nodes, n.2.Perm (s.toList.filter (·.subject == n.1))) ∧
      (nodes.flatMap (·.2)).Perm s.toList := by
  have hlegible : ∀ t ∈ s.toList, Legible t := fun t ht =>
    { expand_eq := fun iri hiri => hexpand iri (TripleSet.mem_iris_of_mem ht hiri)
      plain := hplain t ht }
  have habout : ∀ x, (byField x (s.about x)).Perm (s.about x) := fun x =>
    byField_perm x fun t ht => hlegible t (TripleSet.mem_about.1 ht).1
  have hsubjects : (s.subjects.map fun x => (x, byField x (s.about x))).map (·.1) =
      s.subjects := by
    rw [List.map_map]
    exact List.map_id _
  refine ⟨_, read?_document hlegible, ?_, ?_, ?_, ?_⟩
  · rw [hsubjects]
    exact s.nodup_subjects
  · intro subject
    rw [hsubjects]
    exact TripleSet.mem_subjects
  · intro n hn
    obtain ⟨x, -, rfl⟩ := List.mem_map.1 hn
    exact habout x
  · rw [List.flatMap_map]
    have hgrouped := List.Perm.flatMap_left s.subjects fun x _ => habout x
    rw [← TripleSet.grouped_eq] at hgrouped
    exact hgrouped.trans s.grouped_grouped.perm

/-- Statements about two terms in turn, with a class, two labels under one predicate
and a text in the place of a class. -/
def paintingStatements : TripleSet :=
  let painting := "https://example.org/glossaryTerm/painting"
  let cubism := "https://example.org/glossaryTerm/cubism"
  .ofList [
    { subject := painting, predicate := skos "altLabel", object := .literal "canvas" },
    { subject := cubism, predicate := skos "broader", object := .iri painting },
    { subject := painting, predicate := rdfType, object := .iri (skos "Concept") },
    { subject := painting, predicate := rdfType, object := .literal "@id" },
    { subject := painting, predicate := skos "altLabel", object := .literal "picture" }]

/-- The painting has one node, with all that is said about it. -/
theorem painting_nodes_read_back :
    (∀ iri ∈ paintingStatements.iris, expand iri = iri) ∧
      (∀ t ∈ paintingStatements.toList, t.predicate.toList.head? ≠ some '@') ∧
      ∃ nodes, read? (document paintingStatements) = some nodes ∧
        nodes.length = 2 ∧ (nodes.flatMap (·.2)).Perm paintingStatements.toList := by
  have hexpand : ∀ iri ∈ paintingStatements.iris, expand iri = iri := by decide +kernel
  have hplain : ∀ t ∈ paintingStatements.toList, t.predicate.toList.head? ≠ some '@' := by
    decide +kernel
  obtain ⟨nodes, hread, -, -, -, hperm⟩ := nodes_read_back paintingStatements hexpand hplain
  have hlength : (read? (document paintingStatements)).map List.length = some 2 := by
    decide +kernel
  rw [hread] at hlength
  exact ⟨hexpand, hplain, nodes, hread, Option.some.inj hlength, hperm⟩

end Thesaurus.Rdf.JsonLd
