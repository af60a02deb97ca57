import Thesaurus.Proofs.Rdf.Scheme
import Thesaurus.Proofs.Rdf.TripleSet
import Thesaurus.Proofs.Session

/-!
# What relations add to an export

An export without relations goes by the records of the glossary and of its members.
With relations, three kinds of statements are added and nothing else changes: the way
down from every parent to its child, a statement for every edge that leads from a member
to a live term, and the label of each synonym.

## Main definitions

* `Exporter.Exports`: an edge that an export speaks of.
* `Exporter.Relates`: the statements that relations add.

## Main results

* `Exporter.mem_statements_iff`: the statements with relations, from those without.
* `Exporter.mem_plain_cases`: what is stated without relations.
* `relations_add_exactly`: what exports state with relations and without.
-/

namespace Thesaurus

open Store LawfulStore Message Rdf

section Views

variable {σ : Type} [Store σ]

/-- A live term of a glossary. -/
structure Store.LiveIn (s : σ) (id : GlossaryId) (t : Term) : Prop where
  live : liveRecord s t.id = some t
  glossary : t.glossary = id

namespace Exporter

/-- The statement that a term has another above it. -/
def upward (x : Exporter) (child parent : TermId) : Triple where
  subject := x.termIri child
  predicate := skos "broader"
  object := .iri (x.termIri parent)

/-- The statement that a term has another below it. -/
def downward (x : Exporter) (parent child : TermId) : Triple where
  subject := x.termIri parent
  predicate := skos "narrower"
  object := .iri (x.termIri child)

/-- An edge that the export of a glossary speaks of: it leads from a live term of the
glossary to a live term, and its type is registered. -/
structure Exports (x : Exporter) (s : σ) (id : GlossaryId) (e : Edge) (type : RelationType)
    (target : Term) : Prop where
  stored : e ∈ links s
  registered : x.registry.get? e.type = some type
  source : ∃ t, LiveIn s id t ∧ t.id = e.source
  target : liveRecord s e.target = some target

/-- The statements that relations add to the export of a glossary. -/
inductive Relates (x : Exporter) (s : σ) (id : GlossaryId) : Triple → Prop
  /-- A parent has its child below it. -/
  | child {child parent : Term} (hchild : LiveIn s id child) (hparent : LiveIn s id parent)
      (hbelow : child.parent = some parent.id) : Relates x s id (x.downward parent.id child.id)
  /-- An edge, under the predicate of its type. -/
  | edge {e : Edge} {type : RelationType} {target : Term} (he : x.Exports s id e type target) :
      Relates x s id
        { subject := x.termIri e.source, predicate := predicateIri type,
          object := .iri (x.termIri e.target) }
  /-- A synonym lends its label. -/
  | label {e : Edge} {type : RelationType} {target : Term} (he : x.Exports s id e type target)
      (hsynonym : type.name = "synonym") :
      Relates x s id
        { subject := x.termIri e.source, predicate := skos "altLabel",
          object := .literal target.label }

end Exporter

end Views

namespace Exporter

/-! ## The place of a term -/

section Places

variable {x : Exporter} {g : Glossary} {members : List Term} {withRelations : Bool} {t : Triple}
  {child : Term}

/-- The parent of a term, if it is a member. -/
def parentIn? (members : List Term) (child : Term) : Option TermId :=
  child.parent.filter fun p => members.any (·.id == p)

theorem parentIn?_eq_some_iff {p : TermId} :
    parentIn? members child = some p ↔ child.parent = some p ∧ ∃ u ∈ members, u.id = p := by
  rw [parentIn?, Option.filter_eq_some_iff, List.any_eq_true]
  simp only [beq_iff_eq]

/-- A term stands below its parent if that is a member, else at the top. -/
theorem mem_placeTriples_iff : t ∈ x.placeTriples g members withRelations child ↔
    (∃ p, parentIn? members child = some p ∧
      (t = x.upward child.id p ∨ withRelations = true ∧ t = x.downward p child.id)) ∨
    parentIn? members child = none ∧
      t = { subject := x.glossaryIri g.id, predicate := skos "hasTopConcept",
            object := .iri (x.termIri child.id) } := by
  unfold placeTriples
  rw [← parentIn?]
  cases parentIn? members child with
  | none => simp
  | some p => cases withRelations <;> simp [upward, downward]

end Places

/-! ## The statements of an export -/

/-- What is stated of a term apart from its place. -/
def ownTriples (x : Exporter) (g : Glossary) (u : Term) : List Triple :=
  [{ subject := x.termIri u.id, predicate := rdfType, object := .iri (skos "Concept") },
    { subject := x.termIri u.id, predicate := skos "prefLabel", object := .literal u.label },
    { subject := x.termIri u.id, predicate := skos "inScheme"
      object := .iri (x.glossaryIri g.id) }]
    ++ definitions (x.termIri u.id) u.description
    ++ (u.synonyms.filter fun text => !Text.isAllBlank text).map
        (fun text =>
          { subject := x.termIri u.id, predicate := skos "altLabel", object := .literal text })

/-- The predicates of what is stated of glossaries and terms apart from places. -/
def ownPredicates : List String :=
  [rdfType, rdfs "label", skos "definition", skos "prefLabel", skos "inScheme", skos "altLabel"]

theorem predicate_of_mem_definitions {subject : String} {description : Option String} {t : Triple}
    (h : t ∈ definitions subject description) : t.predicate = skos "definition" := by
  unfold definitions at h
  obtain ⟨text, -, rfl⟩ := Option.map_eq_some_iff.1 (Option.mem_toList.1 h)
  rfl

theorem predicate_of_mem_schemeTriples {x : Exporter} {g : Glossary} {t : Triple}
    (h : t ∈ x.schemeTriples g) : t.predicate ∈ ownPredicates := by
  rcases List.mem_append.1 h with h | h
  · rcases List.mem_pair.1 h with rfl | rfl <;> simp [ownPredicates]
  · rw [predicate_of_mem_definitions h]
    simp [ownPredicates]

theorem predicate_of_mem_ownTriples {x : Exporter} {g : Glossary} {u : Term} {t : Triple}
    (h : t ∈ x.ownTriples g u) : t.predicate ∈ ownPredicates := by
  rcases List.mem_append.1 h with h | h
  · rcases List.mem_append.1 h with h | h
    · simp only [List.mem_cons, List.not_mem_nil, or_false] at h
      rcases h with rfl | rfl | rfl <;> simp [ownPredicates]
    · rw [predicate_of_mem_definitions h]
      simp [ownPredicates]
  · obtain ⟨text, -, rfl⟩ := List.mem_map.1 h
    simp [ownPredicates]

section Statements

variable {σ : Type} [EditableStore σ] [LawfulStore σ] [DirectoryStore σ] {x : Exporter} {s : σ}
  {id : GlossaryId} {g : Glossary} {withRelations : Bool} {t : Triple}

omit [LawfulStore σ] [DirectoryStore σ] in
/-- What an export states. -/
theorem mem_statements : t ∈ (x.statements s id g withRelations).toList ↔
    (t ∈ x.schemeTriples g ∨ ∃ u ∈ membersOf s id, t ∈ x.ownTriples g u) ∨
      (∃ u ∈ membersOf s id, t ∈ x.placeTriples g (membersOf s id) withRelations u) ∨
      withRelations = true ∧ ∃ u ∈ membersOf s id, t ∈ x.relationStatements s u.id := by
  have hconcept : ∀ u, t ∈ x.conceptTriples g (membersOf s id) withRelations u ↔
      t ∈ x.ownTriples g u ∨ t ∈ x.placeTriples g (membersOf s id) withRelations u :=
    fun u => List.mem_append
  unfold statements
  rw [TripleSet.mem_ofList, List.mem_append, List.mem_append, List.mem_flatMap]
  simp only [hconcept, and_or_left, exists_or]
  cases withRelations with
  | false => simp [or_assoc]
  | true => simp [or_assoc]

theorem mem_membersOf_iff (hs : Built s) {u : Term} :
    u ∈ membersOf s id ↔ LiveIn s id u := by
  rw [DirectoryStore.mem_membersOf hs]
  constructor
  · rintro ⟨hrecord, hglossary, hlive⟩
    exact ⟨liveRecord_eq_some_iff.2 ⟨hrecord, hlive⟩, hglossary⟩
  · rintro ⟨hlive, hglossary⟩
    obtain ⟨hrecord, hdeleted⟩ := liveRecord_eq_some_iff.1 hlive
    exact ⟨hrecord, hglossary, hdeleted⟩

/-- The parent of a member is a live term of the glossary, or does not count. -/
theorem parentIn?_membersOf_iff (hs : Built s) {u : Term} {p : TermId} :
    parentIn? (membersOf s id) u = some p ↔
      ∃ parent, LiveIn s id parent ∧ parent.id = p ∧ u.parent = some p := by
  rw [parentIn?_eq_some_iff]
  constructor
  · rintro ⟨hparent, v, hv, rfl⟩
    exact ⟨v, (mem_membersOf_iff hs).1 hv, rfl, hparent⟩
  · rintro ⟨v, hv, rfl, hparent⟩
    exact ⟨hparent, v, (mem_membersOf_iff hs).2 hv, rfl⟩

/-- With relations, the way down is stated beside every way up. -/
theorem mem_places_iff (hs : Built s) :
    (∃ u ∈ membersOf s id, t ∈ x.placeTriples g (membersOf s id) true u) ↔
      (∃ u ∈ membersOf s id, t ∈ x.placeTriples g (membersOf s id) false u) ∨
        ∃ child parent, LiveIn s id child ∧ LiveIn s id parent ∧
          child.parent = some parent.id ∧ t = x.downward parent.id child.id := by
  constructor
  · rintro ⟨u, hu, ht⟩
    rcases mem_placeTriples_iff.1 ht with ⟨p, hp, hup | ⟨-, hdown⟩⟩ | htop
    · exact .inl ⟨u, hu, mem_placeTriples_iff.2 (.inl ⟨p, hp, .inl hup⟩)⟩
    · obtain ⟨parent, hparent, rfl, hbelow⟩ := (parentIn?_membersOf_iff hs).1 hp
      exact .inr ⟨u, parent, (mem_membersOf_iff hs).1 hu, hparent, hbelow, hdown⟩
    · exact .inl ⟨u, hu, mem_placeTriples_iff.2 (.inr htop)⟩
  · rintro (⟨u, hu, ht⟩ | ⟨child, parent, hchild, hparent, hbelow, rfl⟩)
    · rcases mem_placeTriples_iff.1 ht with ⟨p, hp, hup | ⟨hnot, -⟩⟩ | htop
      · exact ⟨u, hu, mem_placeTriples_iff.2 (.inl ⟨p, hp, .inl hup⟩)⟩
      · cases hnot
      · exact ⟨u, hu, mem_placeTriples_iff.2 (.inr htop)⟩
    · have hp := (parentIn?_membersOf_iff hs).2 ⟨parent, hparent, rfl, hbelow⟩
      exact ⟨child, (mem_membersOf_iff hs).2 hchild,
        mem_placeTriples_iff.2 (.inl ⟨parent.id, hp, .inr ⟨rfl, rfl⟩⟩)⟩

/-- The statements of the edges that an export speaks of. -/
theorem mem_relationStatements_iff (hs : Built s) :
    (∃ u ∈ membersOf s id, t ∈ x.relationStatements s u.id) ↔
      ∃ e type target, x.Exports s id e type target ∧
        t ∈ x.relationTriples e.source type target := by
  have hsound := sound_of_built hs
  have hleaving : ∀ {u : Term} {e : Edge}, liveRecord s u.id = some u →
      (e ∈ leaving s u.id [] ↔ e ∈ links s ∧ e.source = u.id) := by
    intro u e hu
    rw [mem_leaving hsound (known_of_liveRecord hu) fun _ h => absurd h List.not_mem_nil]
    simp [TypeFilter.accepts]
  constructor
  · rintro ⟨u, hu, ht⟩
    have hmember := (mem_membersOf_iff hs).1 hu
    obtain ⟨e, he, hstatement⟩ := List.mem_flatMap.1 ht
    obtain ⟨hlink, hsource⟩ := (hleaving hmember.live).1 he
    unfold edgeStatements at hstatement
    split at hstatement
    · next type target htype htarget =>
        exact ⟨e, type, target, ⟨hlink, htype, ⟨u, hmember, hsource.symm⟩, htarget⟩, hstatement⟩
    · exact absurd hstatement List.not_mem_nil
  · rintro ⟨e, type, target, ⟨hlink, htype, ⟨u, hmember, hsource⟩, htarget⟩, ht⟩
    refine ⟨u, (mem_membersOf_iff hs).2 hmember, List.mem_flatMap.2 ⟨e, ?_, ?_⟩⟩
    · exact (hleaving hmember.live).2 ⟨hlink, hsource.symm⟩
    · simp only [edgeStatements, htype, htarget]
      exact ht

omit [DirectoryStore σ] in
/-- What relations add, taken apart by where it comes from. -/
theorem relates_iff (hs : Sound s) : x.Relates s id t ↔
    (∃ child parent, LiveIn s id child ∧ LiveIn s id parent ∧
      child.parent = some parent.id ∧ t = x.downward parent.id child.id) ∨
    ∃ e type target, x.Exports s id e type target ∧
      t ∈ x.relationTriples e.source type target := by
  have hid : ∀ {e : Edge} {type : RelationType} {target : Term}, x.Exports s id e type target →
      target.id = e.target := fun he => id_of_liveRecord hs he.target
  constructor
  · intro h
    cases h with
    | child hchild hparent hbelow => exact .inl ⟨_, _, hchild, hparent, hbelow, rfl⟩
    | edge he =>
        refine .inr ⟨_, _, _, he, ?_⟩
        rw [relationTriples, hid he]
        exact List.mem_cons_self
    | label he hsynonym =>
        refine .inr ⟨_, _, _, he, ?_⟩
        rw [relationTriples, if_pos hsynonym]
        exact List.mem_cons_of_mem _ List.mem_cons_self
  · rintro (⟨child, parent, hchild, hparent, hbelow, rfl⟩ | ⟨e, type, target, he, ht⟩)
    · exact .child hchild hparent hbelow
    · rcases List.mem_cons.1 ht with rfl | hlabel
      · rw [hid he]
        exact .edge he
      · split at hlabel
        · next hsynonym =>
            rw [List.mem_singleton.1 hlabel]
            exact .label he hsynonym
        · exact absurd hlabel List.not_mem_nil

/-- With relations an export states what it states without, and what relations add. -/
theorem mem_statements_iff (hs : Built s) : t ∈ (x.statements s id g true).toList ↔
    t ∈ (x.statements s id g false).toList ∨ x.Relates s id t := by
  rw [mem_statements, mem_statements, mem_places_iff hs, mem_relationStatements_iff hs,
    relates_iff (sound_of_built hs)]
  simp only [Bool.false_eq_true, false_and, or_false, true_and, or_assoc]

/-! ## Exports without relations -/

/-- What is stated without relations: of the glossary and its terms by themselves, of the
top of the scheme, and of every member that it has its parent above it. -/
theorem mem_plain_cases (hs : Built s) (h : t ∈ (x.statements s id g false).toList) :
    t.predicate ∈ ownPredicates ∨ t.predicate = skos "hasTopConcept" ∨
      ∃ child parent, LiveIn s id child ∧ LiveIn s id parent ∧
        child.parent = some parent.id ∧ t = x.upward child.id parent.id := by
  rcases mem_statements.1 h with (hscheme | ⟨u, -, hown⟩) | ⟨u, hu, hplace⟩ | ⟨hnot, -⟩
  · exact .inl (predicate_of_mem_schemeTriples hscheme)
  · exact .inl (predicate_of_mem_ownTriples hown)
  · rcases mem_placeTriples_iff.1 hplace with ⟨p, hp, hup | ⟨hnot, -⟩⟩ | ⟨-, rfl⟩
    · obtain ⟨parent, hparent, rfl, hbelow⟩ := (parentIn?_membersOf_iff hs).1 hp
      exact .inr (.inr ⟨u, parent, (mem_membersOf_iff hs).1 hu, hparent, hbelow, hup⟩)
    · cases hnot
    · exact .inr (.inl rfl)
  · cases hnot

theorem upward_mem_plain (hs : Built s) {child parent : Term} (hchild : LiveIn s id child)
    (hparent : LiveIn s id parent) (hbelow : child.parent = some parent.id) :
    x.upward child.id parent.id ∈ (x.statements s id g false).toList := by
  have hp := (parentIn?_membersOf_iff hs).2 ⟨parent, hparent, rfl, hbelow⟩
  exact mem_statements.2 (.inr (.inl ⟨child, (mem_membersOf_iff hs).2 hchild,
    mem_placeTriples_iff.2 (.inl ⟨parent.id, hp, .inl rfl⟩)⟩))

omit [LawfulStore σ] [DirectoryStore σ] in
/-- The statements without relations go by the record of the glossary and the list of its
members. -/
theorem statements_eq_of_members {τ : Type} [EditableStore τ] {s' : τ}
    (hmembers : membersOf s' id = membersOf s id) :
    x.statements s' id g false = x.statements s id g false := by
  unfold statements
  rw [hmembers]
  simp only [Bool.false_eq_true, if_false]

/-- In whatever order the members are listed, the same is stated of the same records. -/
theorem mem_statements_of_records {τ : Type} [EditableStore τ] [LawfulStore τ] [DirectoryStore τ]
    {s' : τ} (hs : Built s) (hs' : Built s') (hrecords : ∀ a, record s' a = record s a) :
    t ∈ (x.statements s' id g false).toList ↔ t ∈ (x.statements s id g false).toList := by
  have hmembers : ∀ u, u ∈ membersOf s' id ↔ u ∈ membersOf s id := by
    intro u
    rw [DirectoryStore.mem_membersOf hs', DirectoryStore.mem_membersOf hs, hrecords]
  have hparent : ∀ u, parentIn? (membersOf s' id) u = parentIn? (membersOf s id) u := by
    intro u
    refine Option.ext fun p => ?_
    rw [parentIn?_eq_some_iff, parentIn?_eq_some_iff]
    simp only [hmembers]
  rw [mem_statements, mem_statements]
  simp only [mem_placeTriples_iff, hmembers, hparent, Bool.false_eq_true, false_and]

end Statements

end Exporter

/-! ## With and without relations -/

/-- For every state of a store and every glossary that has a record, both exports come to
something. What is stated without relations is the same, in the same order, in all states
that differ in edges only, and the same up to order on all stores with the same records.
With relations, the statements are these and those that relations add, no others. -/
theorem relations_add_exactly (b : Backend) (s : b.State) (hs : Built s) (x : Exporter)
    (id : GlossaryId) (g : Glossary) (hglossary : glossaryRecord s id = some g) :
    ∃ plain full : TripleSet, (x.triples id false).run s = (.ok plain, s) ∧
      (x.triples id true).run s = (.ok full, s) ∧
      (∀ s' : b.State, SameTerms s s' → (x.triples id false).run s' = (.ok plain, s')) ∧
      (∀ (c : Backend) (s' : c.State), Built s' → glossaryRecord s' id = some g →
        (∀ a, record s' a = record s a) →
          ∃ plain' : TripleSet, (x.triples id false).run s' = (.ok plain', s') ∧
            ∀ t, t ∈ plain'.toList ↔ t ∈ plain.toList) ∧
      ∀ t, t ∈ full.toList ↔ t ∈ plain.toList ∨ x.Relates s id t := by
  have hrun : ∀ (c : Backend) (s' : c.State) withRelations, glossaryRecord s' id = some g →
      (x.triples id withRelations).run s' = (.ok (x.statements s' id g withRelations), s') := by
    intro c s' withRelations hg
    rw [x.triples_run, hg]
  refine ⟨x.statements s id g false, x.statements s id g true, hrun b s false hglossary,
    hrun b s true hglossary, ?_, ?_, fun t => Exporter.mem_statements_iff hs⟩
  · intro s' hterms
    have hg : glossaryRecord s' id = some g := by
      rw [glossaryRecord, hterms.glossary, ← glossaryRecord, hglossary]
    have hmembers : membersOf s' id = membersOf s id := by
      rw [membersOf, hterms.members, membersOf]
    rw [hrun b s' false hg, Exporter.statements_eq_of_members hmembers]
  · intro c s' hs' hg hrecords
    exact ⟨_, hrun c s' false hg, fun t => Exporter.mem_statements_of_records hs hs' hrecords⟩

/-- A session that hangs a term under another of its glossary and makes it a synonym of a
term of another glossary. -/
def relateAcross : List Action :=
  let art : Glossary := { id := ⟨"art"⟩, name := "Art" }
  let music : Glossary := { id := ⟨"music"⟩, name := "Music" }
  let painting : Term := .topLevel ⟨"painting"⟩ art "Painting"
  [.edit (.putGlossary art), .edit (.putGlossary music), .edit (.putTerm painting),
    .edit (.putTerm (Term.under (.topLevel ⟨"cubism"⟩ art "Cubism") painting)),
    .edit (.putTerm (.topLevel ⟨"atonality"⟩ music "Atonality")),
    .request (.add ⟨"cubism"⟩ ⟨"atonality"⟩ "synonym")]

/-- Relations add a statement of each kind here. -/
theorem cubism_relations_added :
    let x : Exporter := .withBase .builtin "https://open-metadata.org"
    let s : Backend.State .ordered :=
      runActions (.ofSettings .builtin {}) relateAcross EditableStore.empty
    let cubism : String := "https://open-metadata.org/glossaryTerm/cubism"
    let down : Triple :=
      { subject := "https://open-metadata.org/glossaryTerm/painting",
        predicate := skos "narrower", object := .iri cubism }
    let across : Triple :=
      { subject := cubism, predicate := skos "exactMatch",
        object := .iri "https://open-metadata.org/glossaryTerm/atonality" }
    let label : Triple :=
      { subject := cubism, predicate := skos "altLabel", object := .literal "Atonality" }
    Built s ∧ glossaryRecord s ⟨"art"⟩ = some { id := ⟨"art"⟩, name := "Art" } ∧
      ∃ plain full : TripleSet, (x.triples ⟨"art"⟩ false).run s = (.ok plain, s) ∧
        (x.triples ⟨"art"⟩ true).run s = (.ok full, s) ∧
        (∀ t, t ∈ full.toList ↔ t ∈ plain.toList ∨ x.Relates s ⟨"art"⟩ t) ∧
        down ∈ full.toList ∧ across ∈ full.toList ∧ label ∈ full.toList := by
  intro x s cubism down across label
  let art : Glossary := { id := ⟨"art"⟩, name := "Art" }
  let parent : Term := .topLevel ⟨"painting"⟩ art "Painting"
  let child : Term := Term.under (.topLevel ⟨"cubism"⟩ art "Cubism") parent
  let target : Term := .topLevel ⟨"atonality"⟩ { id := ⟨"music"⟩, name := "Music" } "Atonality"
  let e : Edge := { source := ⟨"cubism"⟩, target := ⟨"atonality"⟩, type := "synonym" }
  let type : RelationType := (x.registry.get? "synonym").get (by decide +kernel)
  have hs : Built s := built_of_reached (reached_runActions _ relateAcross _ .empty)
  have hglossary : glossaryRecord s ⟨"art"⟩ = some art := by decide +kernel
  obtain ⟨plain, full, hplain, hfull, -, -, hadds⟩ :=
    relations_add_exactly .ordered s hs x ⟨"art"⟩ art hglossary
  have hchild : LiveIn s ⟨"art"⟩ child := ⟨by decide +kernel, rfl⟩
  have hparent : LiveIn s ⟨"art"⟩ parent := ⟨by decide +kernel, rfl⟩
  have he : x.Exports s ⟨"art"⟩ e type target :=
    ⟨by decide +kernel, by decide +kernel, ⟨child, hchild, rfl⟩, by decide +kernel⟩
  have hdown : x.downward parent.id child.id = down := by decide +kernel
  have hsource : x.termIri e.source = cubism := by decide +kernel
  have hacross : Triple.mk cubism (predicateIri type) (.iri (x.termIri e.target)) = across := by
    decide +kernel
  have hlabel : Triple.mk cubism (skos "altLabel") (.literal target.label) = label := by
    decide +kernel
  have hedge := Exporter.Relates.edge he
  have hlent := Exporter.Relates.label he (by decide +kernel)
  rw [hsource] at hedge hlent
  refine ⟨hs, hglossary, plain, full, hplain, hfull, hadds, ?_, ?_, ?_⟩
  · exact (hadds _).2 (.inr (hdown ▸ .child hchild hparent rfl))
  · exact (hadds _).2 (.inr (hacross ▸ hedge))
  · exact (hadds _).2 (.inr (hlabel ▸ hlent))

end Thesaurus
