import Thesaurus.Proofs.Rdf.Related
import Thesaurus.Proofs.Session.Terms

/-!
# Exported hierarchies

The hierarchy of an export comes from two sources, the parents of terms and the edges of
the two hierarchy types. A parent makes both statements, the way up and the way down, as
it is a member itself. An edge makes one of them, from the side of the term that it
leaves; the other one is made by the edge that it implies, as long as that leaves a live
term of the same glossary. The invariants of sessions see to all of this.

## Main results

* `Exporter.Exports.inverse`: edges within glossaries are exported from both sides.
* `Exporter.mem_statements_back`: every way is stated with its way back.
* `hierarchy_two_sided`: after every session the exported hierarchy is two-sided.
-/

namespace Thesaurus

open Store LawfulStore Message Rdf

/-! ## Edges from both sides -/

/-- An edge that may not cross is exported together with the edge that it implies. -/
theorem Exporter.Exports.inverse {σ : Type} [EditableStore σ] [LawfulStore σ] {x : Exporter}
    {s : σ} {id : GlossaryId} {e : Edge} {type implied : RelationType} {target : Term}
    (he : x.Exports s id e type target) (hs : Sound s)
    (hpaired : Paired x.registry (links s)) (hpolicy : GlossaryPolicy x.registry s)
    (hstays : type.crossesGlossaries = false) (himplied : type.implied? = some implied.name)
    (hregistered : x.registry.get? implied.name = some implied) :
    ∃ source, x.Exports s id { source := e.target, target := e.source, type := implied.name }
      implied source := by
  obtain ⟨source, ⟨hlive, hglossary⟩, hsource⟩ := he.source
  rw [hsource] at hlive
  have hinverse : e.inverse? x.registry =
      some { source := e.target, target := e.source, type := implied.name } := by
    refine Edge.inverse?_eq_some_iff.2 ⟨?_, rfl, rfl⟩
    rw [Registry.implied?, he.registered]
    exact himplied
  obtain ⟨t, u, ht, hu, hsame⟩ := hpolicy e he.stored type he.registered hstays
  have htarget := (liveRecord_eq_some_iff.1 he.target).1
  rw [(liveRecord_eq_some_iff.1 hlive).1] at ht
  rw [htarget] at hu
  obtain rfl := Option.some.inj ht
  obtain rfl := Option.some.inj hu
  have hid := id_of_liveRecord hs he.target
  refine ⟨source, hpaired.inverse e he.stored _ hinverse, hregistered, ⟨target, ⟨?_, ?_⟩, hid⟩,
    hlive⟩
  · rw [hid]
    exact he.target
  · rw [← hsame, hglossary]

/-! ## The two ways of a hierarchy -/

/-- The ways through a hierarchy. -/
inductive Way
  | up
  | down
deriving DecidableEq, Repr

namespace Way

/-- What a way is stated under. -/
def predicate : Way → String
  | up => skos "broader"
  | down => skos "narrower"

def back : Way → Way
  | up => down
  | down => up

theorem predicate_notMem_ownPredicates (w : Way) : w.predicate ∉ Exporter.ownPredicates := by
  cases w <;> decide +kernel

theorem predicate_ne_hasTopConcept (w : Way) : w.predicate ≠ skos "hasTopConcept" := by
  cases w <;> decide +kernel

theorem predicate_up_ne_down : up.predicate ≠ down.predicate := by
  decide +kernel

/-- The types that are exported as a way stay within glossaries, and imply types that are
exported as the way back. -/
def TurnsIn (w : Way) (registry : Registry) : Prop :=
  ∀ type ∈ registry.types, predicateIri type = w.predicate → type.crossesGlossaries = false ∧
    ∃ implied ∈ registry.types,
      type.implied? = some implied.name ∧ predicateIri implied = w.back.predicate

theorem turnsIn_builtin (w : Way) : w.TurnsIn .builtin := by
  unfold TurnsIn
  cases w <;> decide +kernel

end Way

section Exports

variable {σ : Type} [EditableStore σ] [LawfulStore σ] {x : Exporter} {s : σ} {id : GlossaryId}

/-- What an edge states one way, the edge that it implies states the way back. -/
theorem Exporter.relates_back (hs : Sound s) (hpaired : Paired x.registry (links s))
    (hpolicy : GlossaryPolicy x.registry s) {w : Way} (hturns : w.TurnsIn x.registry) {e : Edge}
    {type : RelationType} {target : Term} (he : x.Exports s id e type target)
    (hway : predicateIri type = w.predicate) :
    x.Relates s id
      { subject := x.termIri e.target, predicate := w.back.predicate,
        object := .iri (x.termIri e.source) } := by
  have hmem := (Registry.mem_of_get? he.registered).1
  obtain ⟨hstays, implied, himpliedMem, himplied, hpredicate⟩ := hturns type hmem hway
  obtain ⟨source, hback⟩ := he.inverse hs hpaired hpolicy hstays himplied
    (Registry.get?_of_mem himpliedMem)
  have hrelates := Exporter.Relates.edge hback
  rw [hpredicate] at hrelates
  exact hrelates

variable [DirectoryStore σ] {g : Glossary} {t : Triple}

/-- What is stated one way comes from a parent or from an edge. -/
theorem Exporter.mem_way_cases (hs : Built s) {w : Way} (hway : t.predicate = w.predicate)
    (h : t ∈ (x.statements s id g true).toList) :
    (∃ child parent, LiveIn s id child ∧ LiveIn s id parent ∧ child.parent = some parent.id ∧
      (t = x.upward child.id parent.id ∨ t = x.downward parent.id child.id)) ∨
    ∃ e type target, x.Exports s id e type target ∧
      t = { subject := x.termIri e.source, predicate := predicateIri type,
            object := .iri (x.termIri e.target) } := by
  have hown : t.predicate ∉ ownPredicates := hway ▸ w.predicate_notMem_ownPredicates
  rcases (mem_statements_iff hs).1 h with hplain | hrelates
  · rcases mem_plain_cases hs hplain with hmem | htop | ⟨child, parent, hc, hp, hbelow, heq⟩
    · exact absurd hmem hown
    · exact absurd (hway.symm.trans htop) w.predicate_ne_hasTopConcept
    · exact .inl ⟨child, parent, hc, hp, hbelow, .inl heq⟩
  · cases hrelates with
    | child hc hp hbelow => exact .inl ⟨_, _, hc, hp, hbelow, .inr rfl⟩
    | edge he => exact .inr ⟨_, _, _, he, rfl⟩
    | label he hsynonym => exact absurd (by simp [ownPredicates]) hown

/-- Where relations are whole and keep to glossaries, every way is stated with its way
back. -/
theorem Exporter.mem_statements_back (hs : Built s) (hpaired : Paired x.registry (links s))
    (hpolicy : GlossaryPolicy x.registry s) (hturns : ∀ w : Way, w.TurnsIn x.registry) (w : Way)
    {here there : String}
    (h : { subject := here, predicate := w.predicate, object := .iri there } ∈
      (x.statements s id g true).toList) :
    { subject := there, predicate := w.back.predicate, object := .iri here } ∈
      (x.statements s id g true).toList := by
  rcases mem_way_cases hs rfl h with
    ⟨child, parent, hc, hp, hbelow, heq | heq⟩ | ⟨e, type, target, he, heq⟩
  · obtain ⟨rfl, hway, hthere⟩ := Triple.mk.inj heq
    cases hthere
    cases w with
    | up => exact (mem_statements_iff hs).2 (.inr (.child hc hp hbelow))
    | down => exact absurd hway.symm Way.predicate_up_ne_down
  · obtain ⟨rfl, hway, hthere⟩ := Triple.mk.inj heq
    cases hthere
    cases w with
    | up => exact absurd hway Way.predicate_up_ne_down
    | down => exact (mem_statements_iff hs).2 (.inl (upward_mem_plain hs hc hp hbelow))
  · obtain ⟨rfl, hway, hthere⟩ := Triple.mk.inj heq
    cases hthere
    exact (mem_statements_iff hs).2 (.inr (relates_back (sound_of_built hs) hpaired hpolicy
      (hturns w) he hway.symm))

end Exports

/-! ## The hierarchy after a session -/

/-- However a session with the built-in types goes, as long as terms with relations stay
in their glossaries: the exported hierarchy of every glossary is two-sided. -/
theorem hierarchy_two_sided (b : Backend) (e : Engine) (he : e.registry = .builtin)
    (actions : List Action) (hsettled : Settled e actions (EditableStore.empty : b.State))
    (x : Exporter) (hx : x.registry = .builtin) (id : GlossaryId) (g : Glossary)
    (hglossary :
      glossaryRecord (runActions e actions (EditableStore.empty : b.State)) id = some g) :
    let s : b.State := runActions e actions EditableStore.empty
    ∃ exported : TripleSet, (x.triples id true).run s = (.ok exported, s) ∧
      ∀ lower upper,
        { subject := lower, predicate := skos "broader", object := .iri upper } ∈
            exported.toList ↔
          { subject := upper, predicate := skos "narrower", object := .iri lower } ∈
            exported.toList := by
  intro s
  have hbuilt : Built s := built_of_reached (reached_runActions e actions _ .empty)
  have hempty : links (EditableStore.empty : b.State) = ∅ := links_empty
  have hstart : Healthy (EditableStore.empty : b.State) := .of_built .empty hempty
  have hpairedStart : Paired e.registry (links (EditableStore.empty : b.State)) := by
    rw [hempty]
    exact Paired.empty e.registry
  have hpaired : Paired x.registry (links s) := by
    rw [hx, ← he]
    exact (paired_of_actions e actions _ hstart hpairedStart).2
  have hpolicy : GlossaryPolicy x.registry s := by
    rw [hx, ← he]
    exact glossaryPolicy_of_settled (he ▸ pairsAgree_builtin) actions _ hstart
      (.of_links_empty e.registry hempty) hsettled
  have hturns : ∀ w : Way, w.TurnsIn x.registry := hx ▸ Way.turnsIn_builtin
  refine ⟨x.statements s id g true, ?_, fun lower upper => ⟨?_, ?_⟩⟩
  · rw [x.triples_run, hglossary]
  · exact Exporter.mem_statements_back hbuilt hpaired hpolicy hturns .up
  · exact Exporter.mem_statements_back hbuilt hpaired hpolicy hturns .down

/-- Edits that write a painting style under another and a third one beside them. -/
def paintingStyles : List Edit :=
  let art : Glossary := { id := ⟨"art"⟩, name := "Art" }
  let painting : Term := .topLevel ⟨"painting"⟩ art "Painting"
  [.putGlossary art, .putTerm painting,
    .putTerm (Term.under (.topLevel ⟨"cubism"⟩ art "Cubism") painting),
    .putTerm (.topLevel ⟨"fauvism"⟩ art "Fauvism")]

/-- A parent and an edge are both exported as ways up, and therefore as ways down. -/
theorem painting_two_sided :
    let e : Engine := .ofSettings .builtin {}
    let x : Exporter := .withBase .builtin "urn:"
    let actions := paintingStyles.map .edit ++
      [RelationRequest.add ⟨"fauvism"⟩ ⟨"painting"⟩ "broader"].map .request
    let s : Backend.State .ordered := runActions e actions EditableStore.empty
    let art : Glossary := { id := ⟨"art"⟩, name := "Art" }
    Settled e actions (EditableStore.empty : Backend.State .ordered) ∧
      glossaryRecord s ⟨"art"⟩ = some art ∧
      ∃ exported : TripleSet, (x.triples ⟨"art"⟩ true).run s = (.ok exported, s) ∧
        ∀ style ∈ ["cubism", "fauvism"],
          x.upward ⟨style⟩ ⟨"painting"⟩ ∈ exported.toList ∧
            x.downward ⟨"painting"⟩ ⟨style⟩ ∈ exported.toList := by
  intro e x actions s art
  let parent : Term := .topLevel ⟨"painting"⟩ art "Painting"
  let child : Term := Term.under (.topLevel ⟨"cubism"⟩ art "Cubism") parent
  let other : Term := .topLevel ⟨"fauvism"⟩ art "Fauvism"
  let type : RelationType := (x.registry.get? "broader").get (by decide +kernel)
  have hs : Built s := built_of_reached (reached_runActions e actions _ .empty)
  have hsettled : Settled e actions (EditableStore.empty : Backend.State .ordered) :=
    settled_of_edits e paintingStyles _ _ links_empty
  have hglossary : glossaryRecord s ⟨"art"⟩ = some art := by decide +kernel
  obtain ⟨exported, hrun, htwo⟩ := hierarchy_two_sided .ordered e rfl actions hsettled x rfl
    ⟨"art"⟩ art hglossary
  have hexported : x.statements s ⟨"art"⟩ art true = exported := by
    rw [x.triples_run, hglossary] at hrun
    exact Except.ok.inj (Prod.mk.inj hrun).1
  have hparent : LiveIn s ⟨"art"⟩ parent := ⟨by decide +kernel, rfl⟩
  have hchild : LiveIn s ⟨"art"⟩ child := ⟨by decide +kernel, rfl⟩
  have hother : LiveIn s ⟨"art"⟩ other := ⟨by decide +kernel, rfl⟩
  have he : x.Exports s ⟨"art"⟩ { source := ⟨"fauvism"⟩, target := ⟨"painting"⟩, type := "broader" }
      type parent :=
    ⟨by decide +kernel, by decide +kernel, ⟨other, hother, rfl⟩, by decide +kernel⟩
  have hcubism : x.upward ⟨"cubism"⟩ ⟨"painting"⟩ ∈ exported.toList := by
    have hplain := Exporter.upward_mem_plain (x := x) (g := art) hs hchild hparent rfl
    rw [← hexported]
    exact (Exporter.mem_statements_iff hs).2 (.inl hplain)
  have hfauvism : x.upward ⟨"fauvism"⟩ ⟨"painting"⟩ ∈ exported.toList := by
    have hpredicate : predicateIri type = skos "broader" := by decide +kernel
    have hrelates := Exporter.Relates.edge he
    rw [hpredicate] at hrelates
    rw [← hexported]
    exact (Exporter.mem_statements_iff hs).2 (.inr hrelates)
  refine ⟨hsettled, hglossary, exported, hrun, fun style hstyle => ?_⟩
  have hup : x.upward ⟨style⟩ ⟨"painting"⟩ ∈ exported.toList := by
    rcases List.mem_pair.1 hstyle with rfl | rfl
    · exact hcubism
    · exact hfauvism
  exact ⟨hup, (htwo _ _).1 hup⟩

end Thesaurus
