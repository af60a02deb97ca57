import Thesaurus.Proofs.Rdf.Related
import Thesaurus.Proofs.Text.Percent

/-!
# Subjects of an export

The IRI of a term or a glossary is the base of the export with a path behind it, and the
identity at its end is encoded. Under any base such IRIs tell the identities, and no term
has the IRI of a glossary: their paths differ in the first place where one of them has a
slash. So the subjects of an export are the scheme and its concepts, each by itself.

## Main definitions

* `ExtendsPlainly`: an IRI that adds to a base what needs no escape.

## Main results

* `Exporter.termIri_injective`, `Exporter.glossaryIri_injective`,
  `Exporter.termIri_ne_glossaryIri`: IRIs tell identities.
* `Exporter.mem_subjects_statements`: what an export speaks of.
* `subjects_of_export`: all of this, for any base and either store.
-/

namespace Thesaurus

open Store LawfulStore Rdf

/-- The IRI is the base with unreserved characters, slashes and percent signs behind it. -/
def ExtendsPlainly (base iri : String) : Prop :=
  ∃ added, iri = base ++ added ∧
    ∀ c ∈ added.toList, Text.isUnreservedChar c = true ∨ c = '/' ∨ c = '%'

theorem ExtendsPlainly.append {base iri : String} (h : ExtendsPlainly base iri) {added : String}
    (hadded : ∀ c ∈ added.toList, Text.isUnreservedChar c = true ∨ c = '/' ∨ c = '%') :
    ExtendsPlainly base (iri ++ added) := by
  obtain ⟨front, rfl, hfront⟩ := h
  refine ⟨front ++ added, String.append_assoc, fun c hc => ?_⟩
  rw [String.toList_append, List.mem_append] at hc
  exact hc.elim (hfront c) (hadded c)

theorem ExtendsPlainly.append_encoded {base iri : String} (h : ExtendsPlainly base iri)
    (text : String) : ExtendsPlainly base (iri ++ Text.percentEncoded text) :=
  h.append fun _ hc => (Text.mem_percentEncoded hc).imp_right .inr

namespace Exporter

/-! ## IRIs and identities -/

section Iris

variable (x : Exporter)

theorem encoded_eq_of_append_eq {front text other : String}
    (h : front ++ Text.percentEncoded text = front ++ Text.percentEncoded other) :
    text = other := by
  apply Text.percentEncoded_injective
  apply String.toList_injective
  have hchars := congrArg String.toList h
  rw [String.toList_append, String.toList_append] at hchars
  exact List.append_cancel_left hchars

/-- The IRI of a term tells its identity. -/
theorem termIri_injective : Function.Injective x.termIri := by
  intro a b h
  exact TermId.ext_text (congrArg String.toList (encoded_eq_of_append_eq h))

/-- The IRI of a glossary tells its identity. -/
theorem glossaryIri_injective : Function.Injective x.glossaryIri := by
  intro a b h
  obtain ⟨a⟩ := a
  obtain ⟨b⟩ := b
  exact congrArg GlossaryId.mk (encoded_eq_of_append_eq h)

/-- No term has the IRI of a glossary. -/
theorem termIri_ne_glossaryIri (t : TermId) (g : GlossaryId) :
    x.termIri t ≠ x.glossaryIri g := by
  intro h
  have hchars := congrArg String.toList h
  simp only [termIri, glossaryIri, String.toList_append, List.append_assoc] at hchars
  have hpaths := congrArg (fun path => path[8]?) (List.append_cancel_left hchars)
  exact absurd hpaths (by simp)

/-- The IRIs of a scheme and of terms with different identities are all different. -/
theorem nodup_subjectIris (g : GlossaryId) {ids : List TermId}
    (hids : ids.Nodup) : (x.glossaryIri g :: ids.map x.termIri).Nodup := by
  refine List.nodup_cons.2 ⟨fun hmem => ?_, hids.map x.termIri_injective⟩
  obtain ⟨id, -, hiri⟩ := List.mem_map.1 hmem
  exact x.termIri_ne_glossaryIri id g hiri

end Iris

theorem extendsPlainly_base (registry : Registry) (base : String) :
    ExtendsPlainly base (withBase registry base).base := by
  have hself : ExtendsPlainly base base := ⟨"", String.append_empty.symm, by simp⟩
  unfold withBase
  dsimp only
  split
  · exact hself
  · exact hself
  · exact hself.append (by simp)

/-! ## What is spoken of -/

section Subjects

variable {σ : Type} [EditableStore σ] [LawfulStore σ] [DirectoryStore σ] {x : Exporter} {s : σ}
  {id : GlossaryId} {g : Glossary} {withRelations : Bool} {t : Triple} {subject : String}

theorem subject_of_mem_definitions {description : Option String}
    (h : t ∈ definitions subject description) : t.subject = subject := by
  unfold definitions at h
  obtain ⟨text, -, rfl⟩ := Option.map_eq_some_iff.1 (Option.mem_toList.1 h)
  rfl

theorem subject_of_mem_schemeTriples (h : t ∈ x.schemeTriples g) :
    t.subject = x.glossaryIri g.id := by
  rcases List.mem_append.1 h with h | h
  · rcases List.mem_pair.1 h with rfl | rfl
    · rfl
    · rfl
  · exact subject_of_mem_definitions h

theorem subject_of_mem_ownTriples {u : Term} (h : t ∈ x.ownTriples g u) :
    t.subject = x.termIri u.id := by
  rcases List.mem_append.1 h with h | h
  · rcases List.mem_append.1 h with h | h
    · simp only [List.mem_cons, List.not_mem_nil, or_false] at h
      rcases h with rfl | rfl | rfl
      · rfl
      · rfl
      · rfl
    · exact subject_of_mem_definitions h
  · obtain ⟨text, -, rfl⟩ := List.mem_map.1 h
    rfl

/-- The place of a term is told of the scheme, of the term, or of its parent. -/
theorem subject_of_mem_placeTriples {members : List Term} {u : Term} (hu : u ∈ members)
    (h : t ∈ x.placeTriples g members withRelations u) :
    t.subject = x.glossaryIri g.id ∨ ∃ v ∈ members, t.subject = x.termIri v.id := by
  rcases mem_placeTriples_iff.1 h with ⟨p, hp, rfl | ⟨-, rfl⟩⟩ | ⟨-, rfl⟩
  · exact .inr ⟨u, hu, rfl⟩
  · obtain ⟨-, v, hv, rfl⟩ := parentIn?_eq_some_iff.1 hp
    exact .inr ⟨v, hv, rfl⟩
  · exact .inl rfl

theorem subject_of_mem_relationStatements (hs : Built s) {u : Term} (hu : u ∈ membersOf s id)
    (h : t ∈ x.relationStatements s u.id) :
    ∃ v ∈ membersOf s id, t.subject = x.termIri v.id := by
  obtain ⟨e, type, target, he, ht⟩ := (mem_relationStatements_iff hs).1 ⟨u, hu, h⟩
  obtain ⟨v, hv, hsource⟩ := he.source
  refine ⟨v, (mem_membersOf_iff hs).2 hv, ?_⟩
  rw [hsource]
  rcases List.mem_cons.1 ht with rfl | hlabel
  · rfl
  · split at hlabel
    · rw [List.mem_singleton.1 hlabel]
    · exact absurd hlabel List.not_mem_nil

/-- An export speaks of the scheme and of the members, and of nothing else. -/
theorem mem_subjects_statements (hs : Built s) :
    subject ∈ (x.statements s id g withRelations).subjects ↔
      subject = x.glossaryIri g.id ∨ ∃ u ∈ membersOf s id, subject = x.termIri u.id := by
  rw [TripleSet.mem_subjects]
  constructor
  · rintro ⟨t, ht, rfl⟩
    rcases mem_statements.1 ht with (hscheme | ⟨u, hu, hown⟩) | ⟨u, hu, hplace⟩ | ⟨-, u, hu, hrel⟩
    · exact .inl (subject_of_mem_schemeTriples hscheme)
    · exact .inr ⟨u, hu, subject_of_mem_ownTriples hown⟩
    · exact subject_of_mem_placeTriples hu hplace
    · exact .inr (subject_of_mem_relationStatements hs hu hrel)
  · rintro (rfl | ⟨u, hu, rfl⟩)
    · exact ⟨_, mem_statements.2 (.inl (.inl List.mem_cons_self)), rfl⟩
    · exact ⟨_, mem_statements.2 (.inl (.inr ⟨u, hu, List.mem_cons_self⟩)), rfl⟩

end Subjects

end Exporter

/-- Members have different identities. -/
theorem Backend.nodup_ids_membersOf (b : Backend) {s : b.State} (hs : Built s)
    (id : GlossaryId) : ((membersOf s id).map (·.id)).Nodup := by
  refine List.Nodup.map_on (fun t ht u hu hsame => ?_) (b.nodup_membersOf hs id)
  have hrecord := ((DirectoryStore.mem_membersOf hs).1 ht).1
  rw [hsame, ((DirectoryStore.mem_membersOf hs).1 hu).1] at hrecord
  exact (Option.some.inj hrecord).symm

/-- Under every base, the IRIs of terms are all different, so are those of glossaries, and
no term has the IRI of a glossary; all of them add unreserved characters, slashes and percent
signs to the base. For every state of either store, the export of a glossary with a record
has one subject for the scheme and one for each of its concepts, and no others. -/
theorem subjects_of_export (registry : Registry) (base : String) :
    let x : Exporter := .withBase registry base
    Function.Injective x.termIri ∧ Function.Injective x.glossaryIri ∧
      (∀ t g, x.termIri t ≠ x.glossaryIri g) ∧
      (∀ t, ExtendsPlainly base (x.termIri t)) ∧ (∀ g, ExtendsPlainly base (x.glossaryIri g)) ∧
      ∀ (b : Backend) (s : b.State), Built s → ∀ id g withRelations,
        glossaryRecord s id = some g →
          ∃ exported : TripleSet, (x.triples id withRelations).run s = (.ok exported, s) ∧
            (x.glossaryIri g.id :: (membersOf s id).map fun t => x.termIri t.id).Nodup ∧
            exported.subjects.Perm
              (x.glossaryIri g.id :: (membersOf s id).map fun t => x.termIri t.id) := by
  intro x
  have hbase := Exporter.extendsPlainly_base registry base
  refine ⟨x.termIri_injective, x.glossaryIri_injective, x.termIri_ne_glossaryIri,
    fun t => (hbase.append (by simp [Text.isUnreservedChar])).append_encoded _,
    fun g => (hbase.append (by simp [Text.isUnreservedChar])).append_encoded _, ?_⟩
  intro b s hs id g withRelations hglossary
  have hnodup := x.nodup_subjectIris g.id (b.nodup_ids_membersOf hs id)
  rw [List.map_map] at hnodup
  refine ⟨x.statements s id g withRelations, ?_, hnodup, ?_⟩
  · rw [x.triples_run, hglossary]
  · refine (List.perm_ext_iff_of_nodup (TripleSet.nodup_subjects _) hnodup).2 fun subject => ?_
    rw [Exporter.mem_subjects_statements hs, List.mem_cons, List.mem_map]
    simp only [Function.comp_apply, eq_comm]

/-- A session with a glossary and two terms, one of which has the encoded form of the other's
identity for its own. -/
def putEncodedIds : List Action :=
  let tools : Glossary := { id := ⟨"c/c++"⟩, name := "C" }
  [.edit (.putGlossary tools), .edit (.putTerm (.topLevel ⟨"c/c++"⟩ tools "Language")),
    .edit (.putTerm (.topLevel ⟨"c%2Fc%2B%2B"⟩ tools "Encoding"))]

/-- The three stay apart. -/
theorem subjects_of_encoded_ids :
    let x : Exporter := .withBase .builtin "https://open-metadata.org"
    let s : Backend.State .ordered :=
      runActions (.ofSettings .builtin {}) putEncodedIds EditableStore.empty
    Built s ∧ glossaryRecord s ⟨"c/c++"⟩ = some { id := ⟨"c/c++"⟩, name := "C" } ∧
      ∃ exported : TripleSet, (x.triples ⟨"c/c++"⟩ true).run s = (.ok exported, s) ∧
        ∀ subject ∈ ["https://open-metadata.org/glossary/c%2Fc%2B%2B",
          "https://open-metadata.org/glossaryTerm/c%2Fc%2B%2B",
          "https://open-metadata.org/glossaryTerm/c%252Fc%252B%252B"],
          subject ∈ exported.subjects := by
  intro x s
  let tools : Glossary := { id := ⟨"c/c++"⟩, name := "C" }
  have hs : Built s := built_of_reached (reached_runActions _ putEncodedIds _ .empty)
  have hglossary : glossaryRecord s ⟨"c/c++"⟩ = some tools := by decide +kernel
  have hlanguage : LiveIn s ⟨"c/c++"⟩ (.topLevel ⟨"c/c++"⟩ tools "Language") :=
    ⟨by decide +kernel, rfl⟩
  have hencoding : LiveIn s ⟨"c/c++"⟩ (.topLevel ⟨"c%2Fc%2B%2B"⟩ tools "Encoding") :=
    ⟨by decide +kernel, rfl⟩
  have hmember : ∀ (u : Term) (a : TermId), LiveIn s ⟨"c/c++"⟩ u → u.id = a →
      x.termIri a ∈ (membersOf s ⟨"c/c++"⟩).map fun t => x.termIri t.id := by
    intro u a hu ha
    exact List.mem_map.2 ⟨u, (Exporter.mem_membersOf_iff hs).2 hu, congrArg x.termIri ha⟩
  obtain ⟨-, -, -, -, -, hexport⟩ := subjects_of_export .builtin "https://open-metadata.org"
  obtain ⟨exported, hrun, -, hperm⟩ := hexport .ordered s hs ⟨"c/c++"⟩ tools true hglossary
  refine ⟨hs, hglossary, exported, hrun, fun subject hsubject => hperm.mem_iff.2 ?_⟩
  have hcases : subject = x.glossaryIri ⟨"c/c++"⟩ ∨ subject = x.termIri ⟨"c/c++"⟩ ∨
      subject = x.termIri ⟨"c%2Fc%2B%2B"⟩ := by
    have hiris : [x.glossaryIri ⟨"c/c++"⟩, x.termIri ⟨"c/c++"⟩, x.termIri ⟨"c%2Fc%2B%2B"⟩] =
        ["https://open-metadata.org/glossary/c%2Fc%2B%2B",
          "https://open-metadata.org/glossaryTerm/c%2Fc%2B%2B",
          "https://open-metadata.org/glossaryTerm/c%252Fc%252B%252B"] := by decide +kernel
    rw [← hiris] at hsubject
    simpa using hsubject
  rcases hcases with rfl | rfl | rfl
  · exact List.mem_cons_self
  · exact List.mem_cons_of_mem _ (hmember _ _ hlanguage rfl)
  · exact List.mem_cons_of_mem _ (hmember _ _ hencoding rfl)

end Thesaurus
