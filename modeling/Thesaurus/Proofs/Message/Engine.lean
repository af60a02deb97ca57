import Thesaurus.Message.Engine
import Thesaurus.Proofs.Relations.Invariants

/-!
# Messages and invariants

Whatever text a message consists of, answering it does no more to the store than
adding or removing one relation.

## Main definitions

* `Message.Method.mutates`: the two methods that may write.

## Main results

* `KeptByMutations.respond`: messages keep what the mutations keep.
-/

namespace Thesaurus

open Message

theorem Message.Engine.keeps_parameters {σ α : Type} {P : σ → Prop} (d : Json.Decoder α)
    (v : Json.Value) : Keeps P (Engine.parameters (σ := σ) d v) :=
  Keeps.of_looking fun _ => rfl

variable {σ : Type} [EditableStore σ] [LawfulStore σ] {e : Engine} {P : σ → Prop}

/-- The methods that may write to the store. -/
def Message.Method.mutates : Method → Bool
  | .addRelation | .removeRelation => true
  | _ => false

/-- A method that only looks keeps every property, one case per method. -/
theorem Message.Engine.keeps_answer_of_not_mutates (e : Engine) {method : Method}
    (h : method.mutates = false) (v : Json.Value) : Keeps P (e.answer method v) := by
  cases method with
  | addRelation => cases h
  | removeRelation => cases h
  | listRelations =>
      exact (Engine.keeps_parameters _ v).bind fun _ =>
        ((e.relations.keeps_relationsOf _).adapt _).bind fun _ => Keeps.pure _
  | buildGraph =>
      exact (Engine.keeps_parameters _ v).bind fun _ =>
        ((e.relations.keeps_neighbourhood _ _ _ _).adapt _).bind fun _ =>
          Keeps.pure _
  | listTypes => exact Keeps.pure _
  | countUsage =>
      exact (e.relations.keeps_usage.adapt _).bind fun _ => Keeps.pure _
  | exportDocument =>
      exact (Engine.keeps_parameters _ v).bind fun _ =>
        ((e.exporter.keeps_document _ _ _).adapt _).bind fun _ => Keeps.pure _
  | exportCell =>
      exact (Engine.keeps_parameters _ v).bind fun _ =>
        ((e.relations.keeps_cellOf _).adapt _).bind fun _ => Keeps.pure _

namespace KeptByMutations

/-- Every method keeps the property: two mutate, and the others only look. -/
theorem keeps_answer (h : KeptByMutations e.relations P) (method : Method) (v : Json.Value) :
    Keeps P (e.answer method v) := by
  cases hmutates : method.mutates with
  | false => exact e.keeps_answer_of_not_mutates hmutates v
  | true =>
      cases method with
      | addRelation =>
          exact (Engine.keeps_parameters _ v).bind fun _ =>
            ((h.add _ _ _).adapt _).bind fun _ => Keeps.pure _
      | removeRelation =>
          exact (Engine.keeps_parameters _ v).bind fun _ =>
            ((h.remove _ _ _).adapt _).bind fun _ => Keeps.pure _
      | _ => cases hmutates

/-- Answering a message keeps the property, be its text read or not. -/
theorem respond (h : KeptByMutations e.relations P) (text : String) {s : σ} (hs : P s) :
    P ((e.respond text).run s).2 := by
  unfold Engine.respond
  cases Request.ofText text with
  | error problem => exact hs
  | ok request =>
      show P ((e.handle request).run s).2
      unfold Engine.handle
      cases Method.ofName? request.method with
      | none => exact hs
      | some method => exact h.keeps_answer method request.parameters s hs

end KeptByMutations

end Thesaurus
