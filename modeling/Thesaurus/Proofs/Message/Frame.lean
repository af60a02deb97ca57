import Thesaurus.Proofs.Relations.AnyEdges
import Thesaurus.Proofs.Session

/-!
# What a message may change

Whatever text a message consists of and whatever edges are stored, the response
carries either a result or an error, and the store is left as it was unless a relation
was added or removed and the response says so. The number of changes in the response
is the number of edges that were added or lost.

The edges in the response are those that changed, with one exception. The ordered
store removes by keys, and it does not look for separators in the identities of a
request to remove. If raw writes have brought in edges of odd types, the key may be
that of another edge, which is then lost without being named.

## Main definitions

* `Message.Response.mutation?`: what a response says about a change.
* `Reports`: a response that says what became of the edges.

## Main results

* `Relations.reporting_add`, `Relations.reporting_remove`: mutations of any edges.
* `messages_change_what_they_report`: every message.
* `unnamed_edge_lost`: the exception.
-/

namespace Thesaurus

open Store LawfulStore Message

/-! ## Mutations on any edges -/

/-- What is reported of a change: how many edges it is, and which, as far as separators
stand where they belong. Terms and glossaries are not touched. -/
structure Reports {σ : Type} [EditableStore σ] [LawfulStore σ] (s s' : σ) (o : Outcome) :
    Prop where
  sameTerms : SameTerms s s'
  changed_eq : o.changed = (symmDiff (links s) (links s')).card
  listed : (Regular s ∨ ∀ e ∈ o.edges, e.source.isStorable = true) →
    ∀ f ∈ symmDiff (links s) (links s'), f ∈ o.edges

/-- A mutation that is refused and changes nothing, or reports what it changes. -/
def Reporting {σ : Type} [EditableStore σ] [LawfulStore σ] (act : RelationM σ Outcome) (s : σ) :
    Prop :=
  (∃ error, act.run s = (.error error, s)) ∨ ∃ o s', act.run s = (.ok o, s') ∧ Reports s s' o

namespace Relations

variable {σ : Type} [EditableStore σ] [LawfulStore σ] (r : Relations) {s : σ}

/-- All that adding brings in is planned. -/
theorem reporting_add [GrowingStore σ] (hs : Sound s) (e : Edge) :
    Reporting (r.add e.source e.target e.type) s := by
  by_cases he : Addable r.registry s e
  · obtain ⟨s', hrun, hleads⟩ := r.add_run_of_sound hs he
    have hchanged := (r.mutates_of_leadsTo (e := e) hleads).changed_eq
    refine .inr ⟨_, s', hrun, hleads.sameTerms, hchanged, fun _ f hf => ?_⟩
    rw [hleads.links_eq, symmDiff_of_le Finset.subset_union_left, Finset.union_sdiff_left] at hf
    exact List.mem_toFinset.1 (Finset.mem_sdiff.1 hf).1
  · exact .inl (r.add_of_not_addable s he)

/-- All that removing loses has the key of a planned edge. -/
theorem reporting_remove [ShrinkingStore σ] (hs : Sound s) (e : Edge) :
    Reporting (r.remove e.source e.target e.type) s := by
  cases hcontains : r.registry.contains e.type with
  | false => exact .inl ⟨_, r.remove_of_not_contains s hcontains⟩
  | true =>
      obtain ⟨s', hrun, hleads⟩ := r.remove_run_of_sound hs hcontains
      have hchanged := (r.mutates_of_leadsTo (e := e) hleads).changed_eq
      refine .inr ⟨_, s', hrun, hleads.sameTerms, hchanged, fun hplain f hf => ?_⟩
      rw [hleads.links_eq, symmDiff_of_ge Finset.sdiff_subset,
        Finset.sdiff_sdiff_self_left] at hf
      obtain ⟨hstored, hlost⟩ := Finset.mem_inter.1 hf
      exact List.mem_toFinset.1 (r.mem_whole_of_mem_losses hcontains hplain hstored hlost)

end Relations

/-! ## Responses -/

/-- What a response says about a change of relations. -/
def Message.Response.mutation? (response : Response) : Option Outcome :=
  match response.outcome with
  | .ok (.mutated o) => some o
  | _ => none

/-- A response has one of the two fields and not the other. -/
theorem Message.Response.isSome_result_iff (response : Response) :
    (response.toJson.field? "result").isSome = true ↔
      (response.toJson.field? "error").isSome = false := by
  unfold Response.toJson Response.outcomeField
  cases response.outcome with
  | ok answer => simp [Json.Value.field?]
  | error refusal => simp [Json.Value.field?]

/-- A response that says something about a change has it as its result. -/
theorem Message.Response.field?_result_of_mutation? {response : Response} {o : Outcome}
    (h : response.mutation? = some o) : response.toJson.field? "result" = some o.toJson := by
  unfold Response.mutation? at h
  split at h
  · next outcome houtcome =>
      obtain rfl := Option.some.inj h
      simp [Response.toJson, Response.outcomeField, houtcome, Answer.toJson, Json.Value.field?]
  · cases h

/-- The methods that mutate have these names. -/
theorem Message.Method.name_of_mutates {name : String} {method : Method}
    (h : Method.ofName? name = some method) (hmutates : method.mutates = true) :
    name = "relation.add" ∨ name = "relation.remove" := by
  have hnamed : ∀ entry ∈ Method.byName, entry.2.mutates = true →
      entry.1 = "relation.add" ∨ entry.1 = "relation.remove" := by decide
  obtain ⟨front, back, hsplit, -⟩ := List.lookup_eq_some_iff.1 h
  have hmem : (name, method) ∈ Method.byName := hsplit ▸ by simp
  exact hnamed _ hmem hmutates

section Messages

variable {σ : Type} [EditableStore σ] [LawfulStore σ] (e : Engine) {s : σ}

/-- The answer of a mutation leaves the state that the mutation leaves. -/
theorem Reporting.answer_cases {act : RelationM σ Outcome} (h : Reporting act s) :
    let answer : Engine.AnswerM σ Answer := do return .mutated (← Engine.ofRequest act)
    (answer.run s).2 = s ∨
      ∃ o s', answer.run s = (.ok (.mutated o), s') ∧ Reports s s' o := by
  intro answer
  rcases h with ⟨error, hrun⟩ | ⟨o, s', hrun, hreports⟩
  · have hrequest : (Engine.ofRequest act).run s = (.error (.relation error), s) := by
      show (Except.mapError _ (act.run s).1, (act.run s).2) = _
      rw [hrun]
      rfl
    refine .inl ?_
    rw [show answer.run s = _ from run_bind_error hrequest]
  · have hrequest : (Engine.ofRequest act).run s = (.ok o, s') := by
      show (Except.mapError _ (act.run s).1, (act.run s).2) = _
      rw [hrun]
      rfl
    exact .inr ⟨o, s', run_bind_ok hrequest, hreports⟩

variable [GrowingStore σ] [ShrinkingStore σ]

/-- A method changes nothing, or is one of the two that mutate and reports its change. -/
theorem Message.Engine.answer_cases (hs : Sound s) (method : Method) (v : Json.Value) :
    ((e.answer method v).run s).2 = s ∨
      method.mutates = true ∧ ∃ o s', (e.answer method v).run s = (.ok (.mutated o), s') ∧
        Reports s s' o := by
  cases hmutates : method.mutates with
  | false => exact .inl (e.keeps_answer_of_not_mutates (P := (· = s)) hmutates v s rfl)
  | true =>
      have hparameters : (Engine.parameters RelationParameters.decoder v).run s =
          ((Json.ofValue RelationParameters.decoder v).mapError .parameters, s) := rfl
      cases hread : Json.ofValue RelationParameters.decoder v with
      | error problem =>
          rw [hread] at hparameters
          refine .inl ?_
          cases method with
          | addRelation => rw [show (e.answer _ v).run s = _ from run_bind_error hparameters]
          | removeRelation => rw [show (e.answer _ v).run s = _ from run_bind_error hparameters]
          | _ => cases hmutates
      | ok p =>
          rw [hread] at hparameters
          let relation : Edge := ⟨⟨p.source⟩, ⟨p.target⟩, p.type.getD e.registry.defaultName⟩
          cases method with
          | addRelation =>
              rw [show (e.answer .addRelation v).run s = _ from run_bind_ok hparameters]
              have hcases := (e.relations.reporting_add hs relation).answer_cases
              exact hcases.imp_right fun hreports => ⟨rfl, hreports⟩
          | removeRelation =>
              rw [show (e.answer .removeRelation v).run s = _ from run_bind_ok hparameters]
              have hcases := (e.relations.reporting_remove hs relation).answer_cases
              exact hcases.imp_right fun hreports => ⟨rfl, hreports⟩
          | _ => cases hmutates

/-- A request changes nothing, or is one to add or to remove a relation and is answered
by the report of its change. -/
theorem Message.Engine.handle_cases (hs : Sound s) (request : Request) :
    ((e.handle request).run s).2 = s ∨
      (request.method = "relation.add" ∨ request.method = "relation.remove") ∧
        ∃ o s', (e.handle request).run s = (.ok (.mutated o), s') ∧ Reports s s' o := by
  unfold Engine.handle
  cases hmethod : Method.ofName? request.method with
  | none => exact .inl rfl
  | some method =>
      refine (e.answer_cases hs method request.parameters).imp_right ?_
      rintro ⟨hmutates, hreports⟩
      exact ⟨Method.name_of_mutates hmethod hmutates, hreports⟩

end Messages

/-! ## Every message -/

/-- Whatever calls have made of a store: a message is answered by a result or by an
error, and never by both. The store stays as it is unless the message is one to add or
to remove a relation and is answered by a result, which is then a report of the change:
of all of it, if the store is the one in memory or a session has led to its state. -/
theorem messages_change_what_they_report (b : Backend) (s : b.State) (hs : Built s) (e : Engine)
    (text : String) :
    let response := ((e.respond text).run s).1
    let s' := ((e.respond text).run s).2
    ((response.toJson.field? "result").isSome = true ↔
        (response.toJson.field? "error").isSome = false) ∧
      (s' ≠ s → ∃ request o, Request.ofText text = .ok request ∧
        (request.method = "relation.add" ∨ request.method = "relation.remove") ∧
          response.mutation? = some o ∧ response.toJson.field? "result" = some o.toJson ∧
            Reports s s' o ∧
            (b = .memory ∨ Reached s → ∀ f ∈ symmDiff (links s) (links s'), f ∈ o.edges)) := by
  intro response s'
  have hregular : b = .memory ∨ Reached s → Regular s := by
    rintro (rfl | hreached)
    · trivial
    · exact (healthy_of_reached hreached).regular
  refine ⟨response.isSome_result_iff, fun hchanged => ?_⟩
  cases hread : Request.ofText text with
  | error problem =>
      have hrespond : (e.respond text).run s = (⟨.error .unreadable, none⟩, s) := by
        unfold Engine.respond
        rw [hread]
        rfl
      exact absurd (congrArg Prod.snd hrespond) hchanged
  | ok request =>
      have hrespond : (e.respond text).run s =
          (⟨((e.handle request).run s).1, request.id⟩, ((e.handle request).run s).2) := by
        unfold Engine.respond
        rw [hread]
        rfl
      have hstate : s' = ((e.handle request).run s).2 := congrArg Prod.snd hrespond
      rcases e.handle_cases (sound_of_built hs) request with
        hsame | ⟨hmethod, o, t, hhandle, hreports⟩
      · exact absurd (hstate.trans hsame) hchanged
      · rw [hhandle] at hrespond hstate
        have hresponse : response = ⟨.ok (.mutated o), request.id⟩ := congrArg Prod.fst hrespond
        have hreports : Reports s s' o := hstate ▸ hreports
        have hmutation : response.mutation? = some o := by
          rw [hresponse]
          rfl
        exact ⟨request, o, rfl, hmethod, hmutation,
          Response.field?_result_of_mutation? hmutation, hreports,
          fun h => hreports.listed (.inl (hregular h))⟩

/-! ## Two messages to the ordered store -/

/-- Calls that write a glossary with two terms, and an edge between them. -/
def writeLinkedTerms (type : String) : List Write :=
  let glossary : Glossary := { id := ⟨"art"⟩, name := "Art" }
  [.edit (.putGlossary glossary), .edit (.putTerm (.topLevel ⟨"cubism"⟩ glossary "Cubism")),
    .edit (.putTerm (.topLevel ⟨"painting"⟩ glossary "Painting")),
    .addEdge ⟨⟨"cubism"⟩, ⟨"painting"⟩, type⟩]

/-- A message to remove a relation from a term to the term `painting`. -/
def removalFrom (source : String) : String :=
  "\x7b\"method\": \"relation.remove\", \"params\": \x7b\"from\": \"" ++ source
    ++ "\", \"to\": \"painting\", \"relationType\": \"broader\"\x7d\x7d"

/-- The message that names the stored edge is answered by one change, which it lists. -/
theorem removal_of_broader_reported :
    let e : Engine := .ofSettings .builtin {}
    let s : Backend.State .ordered :=
      (writeLinkedTerms "broader").foldl (fun s w => w.run s) EditableStore.empty
    let s' := ((e.respond (removalFrom "cubism")).run s).2
    Built s ∧ s' ≠ s ∧ ∃ request o, Request.ofText (removalFrom "cubism") = .ok request ∧
      (request.method = "relation.add" ∨ request.method = "relation.remove") ∧
        ((e.respond (removalFrom "cubism")).run s).1.mutation? = some o ∧
        ((e.respond (removalFrom "cubism")).run s).1.toJson.field? "result" = some o.toJson ∧
        Reports s s' o ∧ o.changed = 1 ∧ ⟨⟨"cubism"⟩, ⟨"painting"⟩, "broader"⟩ ∈ o.edges := by
  intro e s s'
  have hs : Built s := Built.writes _ _ .empty
  have hlinks : links s' ≠ links s := by decide +kernel
  have hchanged : s' ≠ s := fun hsame => hlinks (congrArg links hsame)
  obtain ⟨request, o, hread, hmethod, hmutation, hresult, hreports, -⟩ :=
    (messages_change_what_they_report .ordered s hs e _).2 hchanged
  let both : List Edge :=
    [⟨⟨"cubism"⟩, ⟨"painting"⟩, "broader"⟩, ⟨⟨"painting"⟩, ⟨"cubism"⟩, "narrower"⟩]
  have hreport : ((e.respond (removalFrom "cubism")).run s).1.mutation? =
      some { edges := both, changed := 1 } := by decide +kernel
  obtain rfl := Option.some.inj (hmutation.symm.trans hreport)
  exact ⟨hs, hchanged, request, _, hread, hmethod, hmutation, hresult, hreports, rfl,
    List.mem_cons_self⟩

/-- A type with a separator makes the key of the stored edge that of another edge, whose
source is a text with a separator. The message to remove that one, which is not stored,
removes the stored edge and reports one change among edges that are not it. -/
theorem unnamed_edge_lost :
    let e : Engine := .ofSettings .builtin {}
    let s : Backend.State .ordered :=
      (writeLinkedTerms "x\x1fbroader").foldl (fun s w => w.run s) EditableStore.empty
    let text := removalFrom "cubism\\u001fx"
    let s' := ((e.respond text).run s).2
    Built s ∧ ∃ o f, ((e.respond text).run s).1.mutation? = some o ∧
      ((e.respond text).run s).1.toJson.field? "result" = some o.toJson ∧ o.changed = 1 ∧
      f ∈ symmDiff (links s) (links s') ∧ f ∉ o.edges := by
  intro e s text s'
  let source : TermId := ⟨"cubism\x1fx"⟩
  let o : Outcome := {
    edges := [⟨source, ⟨"painting"⟩, "broader"⟩, ⟨⟨"painting"⟩, source, "narrower"⟩]
    changed := 1 }
  let f : Edge := ⟨⟨"cubism"⟩, ⟨"broader\x1fpainting"⟩, "x"⟩
  have hs : Built s := Built.writes _ _ .empty
  have hreport : ((e.respond text).run s).1.mutation? = some o := by decide +kernel
  have hlost : f ∈ symmDiff (links s) (links s') := by decide +kernel
  exact ⟨hs, o, f, hreport, Response.field?_result_of_mutation? hreport, rfl, hlost, by decide⟩

end Thesaurus
