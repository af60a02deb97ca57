import Thesaurus.Neighbourhood
import Thesaurus.Proofs.Relations.Requests
import Thesaurus.Rdf.Scheme
import Thesaurus.Sheet.Import

/-!
# Invariants of relations

All that requests ever do to a healthy store is to add and to remove relations,
each as a whole. A property of states is therefore kept by every request, and by
every import, as soon as it is kept by these two changes.

## Main definitions

* `Change`: one relation is added or removed.
* `RelationInvariant`: a property of healthy states that changes keep.
* `KeptByMutations`: what the two mutations keep, whatever comes of them.
* `RelationRequest`: adding, removing and importing, as data.

## Main results

* `RelationInvariant.keeps_add`, `RelationInvariant.keeps_remove`: the mutations.
* `KeptByMutations.importRows`: imports.
* `keeps_neighbourhood`, `keeps_document`: what only looks keeps everything.
-/

namespace Thesaurus

open Store LawfulStore

/-! ## Requests inside other computations -/

section Parts

variable {σ : Type} {P : σ → Prop}

theorem Relations.keeps_call {α : Type} {act : StoreM σ α}
    (r : Relations) (h : act.Looks) : Keeps P (r.call act) := by
  refine Keeps.of_looking fun s => ?_
  obtain ⟨a, ha⟩ := h s
  rw [r.call_run ha]

theorem ExportM.keeps_ofStore {α : Type} {act : StoreM σ α} (h : act.Looks) :
    Keeps P (ExportM.ofStore act) := by
  refine Keeps.of_looking fun s => ?_
  obtain ⟨a, ha⟩ := h s
  unfold ofStore
  rw [ExceptT.run_mk]
  simp only [ha]

theorem RowM.keeps_ofRequest {α : Type} {act : RelationM σ α} (h : Keeps P act) :
    Keeps P (RowM.ofRequest act) := by
  refine h.of_same_states fun s => ?_
  unfold ofRequest
  rw [ExceptT.run_mk]
  rcases act.run s with ⟨result, s'⟩
  cases result with
  | ok a => rfl
  | error e => rfl

end Parts

variable {σ : Type} [EditableStore σ] [LawfulStore σ]

/-! ## What changes -/

/-- One relation is added, or one is removed. -/
inductive Change (registry : Registry) (s s' : σ) : Prop
  | added (e : Edge) (he : Addable registry s e)
      (h : Relinked s s' (links s ∪ (e.plan registry).toFinset))
  | removed (e : Edge) (he : registry.contains e.type = true)
      (h : Relinked s s' (links s \ (e.plan registry).toFinset))

/-- A property of healthy states that no change of relations breaks. -/
structure RelationInvariant (registry : Registry) (P : σ → Prop) : Prop where
  healthy : ∀ s, P s → Healthy s
  change : ∀ s s', P s → Change registry s s' → P s'

/-! ## What only looks

None of these has anything to ask of the property. -/

section Looking

variable {P : σ → Prop}

namespace Relations

variable (r : Relations)

theorem keeps_liveTerm? (id : TermId) : Keeps P (r.liveTerm? (σ := σ) id) :=
  (r.keeps_call (looks_term id)).bind fun _ => Keeps.pure _

theorem keeps_validate (source target : TermId) (type : String) :
    Keeps P (r.validate (σ := σ) source target type) := by
  refine Keeps.of_looking fun s => ?_
  rw [r.validate_run]

theorem keeps_relationsOf (id : TermId) : Keeps P (r.relationsOf (σ := σ) id) := by
  refine Keeps.of_looking fun s => ?_
  rw [r.relationsOf_run]
  cases liveRecord s id with
  | none => rfl
  | some t => rfl

theorem keeps_termByName (name : String) : Keeps P (r.termByName (σ := σ) name) :=
  (r.keeps_call (looks_termByName name)).bind fun _ => Keeps.pure _

theorem keeps_usage : Keeps P (r.usage (σ := σ)) :=
  (r.keeps_call looks_usage).bind fun _ => Keeps.pure _

theorem keeps_cellOf (id : TermId) : Keeps P (r.cellOf (σ := σ) id) :=
  (r.keeps_relationsOf id).bind fun _ => Keeps.pure _

theorem keeps_followEdge (cap : Option Nat) (depth : Nat) (x : Exploration) (e : Edge) :
    Keeps P (r.followEdge (σ := σ) cap depth x e) := by
  unfold followEdge
  split
  · exact Keeps.pure _
  · split
    · exact Keeps.pure _
    · refine (r.keeps_liveTerm? e.target).bind fun found => ?_
      cases found with
      | none => exact Keeps.pure _
      | some t => exact Keeps.pure _

theorem keeps_expandTerm (filter : TypeFilter) (cap : Option Nat) (depth : Nat)
    (x : Exploration) (id : TermId) : Keeps P (r.expandTerm (σ := σ) filter cap depth x id) :=
  (r.keeps_call (looks_edgesFrom id filter)).bind fun edges =>
    Keeps.foldlM edges (fun y e _ => r.keeps_followEdge cap depth y e) x

theorem keeps_explore (filter : TypeFilter) (cap : Option Nat) (levels : Nat) :
    ∀ (depth : Nat) (level : List TermId) (x : Exploration),
      Keeps P (r.explore (σ := σ) filter cap levels depth level x) := by
  induction levels with
  | zero => intro depth level x; exact Keeps.pure _
  | succ levels ih =>
      intro depth level x
      unfold explore
      split
      · exact Keeps.pure _
      · refine Keeps.bind ?_ fun next => ih _ _ _
        exact Keeps.foldlM level (fun y id _ => r.keeps_expandTerm filter cap depth y id) x

theorem keeps_neighbourhood (root : TermId) (maxDepth : Nat) (filter : TypeFilter)
    (cap : Option Nat) : Keeps P (r.neighbourhood (σ := σ) root maxDepth filter cap) := by
  unfold neighbourhood
  split
  · exact Keeps.throw _
  · refine (r.keeps_liveTerm? root).bind fun found => ?_
    cases found with
    | none => exact Keeps.throw _
    | some rootTerm => exact (r.keeps_explore filter cap maxDepth 0 _ _).bind fun _ => Keeps.pure _

end Relations

namespace Exporter

variable (x : Exporter)

theorem keeps_edgeTriples (e : Edge) : Keeps P (x.edgeTriples (σ := σ) e) := by
  unfold edgeTriples
  cases x.registry.get? e.type with
  | none => exact Keeps.pure _
  | some type =>
      refine (ExportM.keeps_ofStore (looks_term e.target)).bind fun found => ?_
      cases found.bind Term.live? with
      | none => exact Keeps.pure _
      | some target => exact Keeps.pure _

theorem keeps_relationsOfTerm (t : Term) : Keeps P (x.relationsOfTerm (σ := σ) t) :=
  (ExportM.keeps_ofStore (looks_edgesFrom t.id [])).bind fun edges =>
    (Keeps.mapM edges fun e _ => x.keeps_edgeTriples e).bind fun _ => Keeps.pure _

theorem keeps_triples (id : GlossaryId) (withRelations : Bool) :
    Keeps P (x.triples (σ := σ) id withRelations) := by
  unfold triples
  refine (ExportM.keeps_ofStore (looks_glossary id)).bind fun found => ?_
  cases found with
  | none => exact Keeps.throw _
  | some g =>
      refine (ExportM.keeps_ofStore (looks_members id)).bind fun members => ?_
      cases withRelations with
      | false => exact (Keeps.pure _).bind fun _ => Keeps.pure _
      | true =>
          exact (Keeps.mapM members fun t _ => x.keeps_relationsOfTerm t).bind fun _ =>
            Keeps.pure _

theorem keeps_document (id : GlossaryId) (format : Rdf.Format) (withRelations : Bool) :
    Keeps P (x.document (σ := σ) id format withRelations) :=
  (x.keeps_triples id withRelations).bind fun _ => Keeps.pure _

end Exporter

end Looking

/-! ## Mutations and imports -/

namespace RelationInvariant

variable {r : Relations} {P : σ → Prop}

theorem keeps_add (h : RelationInvariant r.registry P) (source target : TermId) (type : String) :
    Keeps P (r.add source target type) := by
  intro s hs
  by_cases he : Addable r.registry s { source := source, target := target, type := type }
  · obtain ⟨s', hrun, hrelinked⟩ := r.add_of_addable (h.healthy s hs) he
    rw [hrun]
    exact h.change s s' hs (.added _ he hrelinked)
  · obtain ⟨error, hrun⟩ := r.add_of_not_addable s he
    rw [hrun]
    exact hs

theorem keeps_remove (h : RelationInvariant r.registry P) (source target : TermId)
    (type : String) : Keeps P (r.remove source target type) := by
  intro s hs
  let e : Edge := { source := source, target := target, type := type }
  cases he : r.registry.contains type with
  | true =>
      obtain ⟨s', hrun, hrelinked⟩ := r.remove_of_contains (e := e) (h.healthy s hs) he
      rw [hrun]
      exact h.change s s' hs (.removed e he hrelinked)
  | false =>
      rw [r.remove_of_not_contains (e := e) s he]
      exact hs

end RelationInvariant

/-- A property that adding and removing relations keep, also when they fail. -/
structure KeptByMutations (r : Relations) (P : σ → Prop) : Prop where
  add : ∀ source target type, Keeps P (r.add source target type)
  remove : ∀ source target type, Keeps P (r.remove source target type)

/-- The mutations write by calls. -/
theorem keptByMutations_built (r : Relations) : KeptByMutations r (Built (σ := σ)) := by
  have happly : ∀ op e, Keeps Built (r.applyPlan (σ := σ) op e) := by
    intro op e
    refine Keeps.bind (fun s hs => ?_) fun _ => Keeps.pure _
    rw [r.call_state]
    exact .write (.apply ((r.plan e).map op)) hs
  constructor
  · intro source target type
    exact (r.keeps_validate source target type).bind fun found => happly .add _
  · intro source target type
    refine Keeps.bind (Keeps.of_looking fun s => ?_) fun found => happly .remove _
    rw [r.resolveType_run]
    split <;> rfl

theorem RelationInvariant.kept {r : Relations} {P : σ → Prop}
    (h : RelationInvariant r.registry P) : KeptByMutations r P :=
  ⟨h.keeps_add, h.keeps_remove⟩

namespace KeptByMutations

variable {r : Relations} {P : σ → Prop}

theorem keeps_importRow (h : KeptByMutations r P) (row : Row) :
    Keeps P (r.importRow row) := by
  have hcheck : ∀ source raw, Keeps P (r.checkEntry (σ := σ) source raw) := by
    intro source raw
    unfold Relations.checkEntry
    refine (RowM.keeps_ofRequest (r.keeps_termByName _)).bind fun found => ?_
    cases found with
    | none =>
        cases Cell.unknownType? r.registry raw with
        | none => exact Keeps.throw _
        | some name => exact Keeps.throw _
    | some target =>
        exact (RowM.keeps_ofRequest (r.keeps_validate _ _ _)).bind fun _ => Keeps.pure _
  unfold Relations.importRow
  refine (RowM.keeps_ofRequest (r.keeps_termByName row.source)).bind fun found => ?_
  cases found with
  | none => exact Keeps.throw _
  | some source =>
      refine (Keeps.mapM _ fun raw _ => hcheck source.id raw).bind fun checked => ?_
      refine (Keeps.mapM checked fun entry _ => ?_).bind fun _ => Keeps.pure _
      exact RowM.keeps_ofRequest (h.add source.id entry.1 entry.2)

/-- An import leads from states with the property to such states, row by row. -/
theorem importRows (h : KeptByMutations r P) (rows : List Row) {s : σ} (hs : P s) :
    P ((r.importRows rows).run s).2 := by
  unfold Relations.importRows
  generalize ({} : Report) = report
  induction rows generalizing s report with
  | nil => exact hs
  | cons row rest ih =>
      rw [List.foldlM_cons]
      exact ih (h.keeps_importRow row s hs) _

end KeptByMutations

/-! ## Requests -/

/-- A request that may write relations. -/
inductive RelationRequest
  | add (source target : TermId) (type : String)
  | remove (source target : TermId) (type : String)
  | importRows (rows : List Row)
deriving DecidableEq, Repr

/-- The state after a request, whether it succeeds or fails. -/
def RelationRequest.run (q : RelationRequest) (r : Relations) (s : σ) : σ :=
  match q with
  | .add source target type => ((r.add source target type).run s).2
  | .remove source target type => ((r.remove source target type).run s).2
  | .importRows rows => ((r.importRows rows).run s).2

/-- The state after a list of requests. -/
def runRequests (r : Relations) (requests : List RelationRequest) (s : σ) : σ :=
  requests.foldl (fun s q => q.run r s) s

theorem KeptByMutations.request {r : Relations} {P : σ → Prop} (h : KeptByMutations r P)
    (q : RelationRequest) {s : σ} (hs : P s) : P (q.run r s) := by
  cases q with
  | add source target type => exact h.add source target type s hs
  | remove source target type => exact h.remove source target type s hs
  | importRows rows => exact h.importRows rows hs

/-- Whatever changes keep holds after every list of requests. -/
theorem RelationInvariant.requests {r : Relations} {P : σ → Prop}
    (h : RelationInvariant r.registry P) (requests : List RelationRequest) :
    ∀ s, P s → P (runRequests r requests s) := by
  induction requests with
  | nil => intro s hs; exact hs
  | cons q rest ih => intro s hs; exact ih (q.run r s) (h.kept.request q hs)

end Thesaurus
