import Thesaurus.Proofs.Session.Terms
import Thesaurus.Proofs.Store.Names

/-!
# Live terms found by name

A name leads to one record, and nothing keeps two records from having one name. As
long as no two records ever do, every live term is what its name leads to. Nothing
less will do: a record that changes its name takes the former one away, whichever
record it leads to. So whenever a live term has its name in common with another
record, a change of that record's name makes the live term unfindable by its own.

## Main definitions

* `Findable`: the name of every live term leads to a live term of that name.

## Main results

* `found_by_name_unless_shared`: which live terms are found, and how they get lost.
* `not_findable_after_rename`: a session after which a live term is not found.
-/

namespace Thesaurus

open Store LawfulStore Message

/-- The name of every live term leads to a live term of that name. -/
def Findable {σ : Type} [Store σ] (r : Relations) (s : σ) : Prop :=
  ∀ id t, liveRecord s id = some t →
    ∃ u, (r.termByName t.fullName).run s = (.ok (some u), s) ∧
      u.fullName = t.fullName ∧ u.deleted = false

theorem Indexed.named_eq {σ : Type} [Store σ] {s : σ} (h : Indexed s) {id : TermId} {t : Term}
    (ht : liveRecord s id = some t) : named s t.fullName = some t := by
  obtain ⟨hrecord, hlive⟩ := liveRecord_eq_some_iff.1 ht
  rw [named, h id t hrecord]
  exact Term.live?_eq_some_iff.2 ⟨rfl, hlive⟩

/-- Writing a term leaves the other live terms as they are. -/
theorem liveRecord_putTerm {σ : Type} [EditableStore σ] [LawfulStore σ] [DirectoryStore σ]
    {s : σ} {id : TermId} {v : Term} (hs : Sound s) (hid : id ≠ v.id) :
    liveRecord (Edit.run (.putTerm v) s) id = liveRecord s id := by
  rcases DirectoryStore.record_edit (.putTerm v) hs with hrefused | hrecords
  · rw [hrefused]
  · rw [liveRecord, hrecords, Edit.onTerms, if_neg hid, liveRecord]

/-! ## What is found by name -/

/-- What is found by a name is a live term of that name. In sessions in which no two
records ever share a name, every live term is what its name leads to. Where a live term
has its name in common with another record, one change of that record's name is enough
for the live term not to be found. -/
theorem found_by_name_unless_shared (b : Backend) (r : Relations) :
    (∀ s : b.State, Built s → ∀ name u, (r.termByName name).run s = (.ok (some u), s) →
      u.fullName = name ∧ u.deleted = false) ∧
      (∀ s : b.State, ReachedApart s → ∀ id t, liveRecord s id = some t →
        (r.termByName t.fullName).run s = (.ok (some t), s)) ∧
        ∀ s : b.State, Built s → ∀ id other t u, id ≠ other → liveRecord s id = some t →
          record s other = some u → u.fullName = t.fullName →
            ∀ v : Term, v.id = other → v.fullName ≠ t.fullName →
              let s' := Edit.run (.putTerm v) s
              liveRecord s' id = some t ∧
                (r.termByName t.fullName).run s' = (.ok none, s') := by
  refine ⟨?_, ?_, ?_⟩
  · intro s hs name u hrun
    rw [r.termByName_run] at hrun
    exact b.eq_of_named hs (Except.ok.inj (Prod.mk.inj hrun).1)
  · intro s hs id t ht
    rw [r.termByName_run, hs.indexed.named_eq ht]
  · intro s hs id other t u hid ht hu hshared v hv hname s'
    subst hv
    have hsound := sound_of_built hs
    have hgone : named s' t.fullName = none := by
      rw [← hshared]
      exact b.named_putTerm hsound hu (hshared ▸ hname.symm)
    refine ⟨?_, ?_⟩
    · rw [liveRecord_putTerm hsound hid, ht]
    · rw [r.termByName_run, hgone]

/-- A glossary of two terms of which one changes its name and the other one is deleted. -/
def renameApart : List Edit :=
  let glossary : Glossary := { id := ⟨"art"⟩, name := "Art" }
  [.putGlossary glossary, .putTerm (.topLevel ⟨"cubism"⟩ glossary "Cubism"),
    .putTerm (.topLevel ⟨"painting"⟩ glossary "Painting"),
    .putTerm (.topLevel ⟨"painting"⟩ glossary "Fine art"), .deleteTerm ⟨"cubism"⟩]

/-- The renamed term is found by its new name. Once the other term has taken that name
as well, one more renaming makes the term unfindable. -/
theorem fine_art_found_until_shared :
    let glossary : Glossary := { id := ⟨"art"⟩, name := "Art" }
    let fineArt : Term := .topLevel ⟨"painting"⟩ glossary "Fine art"
    let r : Relations := { registry := .builtin }
    let s : Backend.State .ordered :=
      runActions (.ofSettings .builtin {}) (renameApart.map .edit) EditableStore.empty
    let shared := Edit.run (.putTerm (.topLevel ⟨"cubism"⟩ glossary "Fine art")) s
    let renamed := Edit.run (.putTerm (.topLevel ⟨"cubism"⟩ glossary "Cubism")) shared
    ReachedApart s ∧ liveRecord s ⟨"painting"⟩ = some fineArt ∧
      (r.termByName fineArt.fullName).run s = (.ok (some fineArt), s) ∧
        liveRecord renamed ⟨"painting"⟩ = some fineArt ∧
          (r.termByName fineArt.fullName).run renamed = (.ok none, renamed) := by
  intro glossary fineArt r s shared renamed
  obtain ⟨-, hfound, hlost⟩ := found_by_name_unless_shared .ordered r
  have hs : ReachedApart s := OrderedStore.reachedApart_of_nodup _ _ (by decide +kernel)
  have hlive : liveRecord s ⟨"painting"⟩ = some fineArt := by decide +kernel
  have hshared : Built shared :=
    .write (.edit (.putTerm (.topLevel ⟨"cubism"⟩ glossary "Fine art"))) (built_of_reached hs.reached)
  exact ⟨hs, hlive, hfound s hs _ _ hlive,
    hlost shared hshared ⟨"painting"⟩ ⟨"cubism"⟩ fineArt
      (.topLevel ⟨"cubism"⟩ glossary "Fine art") (by decide) (by decide +kernel)
      (by decide +kernel) (by decide +kernel) (.topLevel ⟨"cubism"⟩ glossary "Cubism") rfl
      (by decide +kernel)⟩

/-- The state after edits are made one after the other. -/
def runEdits {σ : Type} [EditableStore σ] (edits : List Edit) (s : σ) : σ :=
  edits.foldl (fun s x => x.run s) s

/-- A glossary of two terms. The second has a name that the first takes over and then
claims for itself; the second changes its name after that. -/
def handOverName : List Edit :=
  let glossary : Glossary := { id := ⟨"art"⟩, name := "Art" }
  [.putGlossary glossary, .putTerm (.topLevel ⟨"cubism"⟩ glossary "Cubist art"),
    .putTerm (.topLevel ⟨"painting"⟩ glossary "Cubism"),
    .putTerm (.topLevel ⟨"cubism"⟩ glossary "Cubism"),
    .putTerm (.topLevel ⟨"painting"⟩ glossary "Painting")]

theorem not_findable_of_handOverName (b : Backend) (r : Relations) :
    ¬ Findable r (runEdits handOverName (EditableStore.empty : b.State)) := by
  intro hfindable
  let glossary : Glossary := { id := ⟨"art"⟩, name := "Art" }
  let cubism : Term := .topLevel ⟨"cubism"⟩ glossary "Cubism"
  have hlive : liveRecord (runEdits handOverName (EditableStore.empty : b.State)) ⟨"cubism"⟩ =
      some cubism := by
    cases b <;> decide +kernel
  have hlost : named (runEdits handOverName (EditableStore.empty : b.State)) cubism.fullName =
      none := by
    cases b <;> decide +kernel
  obtain ⟨u, hrun, -⟩ := hfindable _ cubism hlive
  rw [r.termByName_run, hlost] at hrun
  cases hrun

/-- On either store, a live term whose name no other record has any more need not be
found, although it claimed the name last. -/
theorem not_findable_after_rename :
    let r : Relations := { registry := .builtin }
    ¬ Findable r (runEdits handOverName (EditableStore.empty : Backend.State .memory)) ∧
      ¬ Findable r (runEdits handOverName (EditableStore.empty : Backend.State .ordered)) := by
  intro r
  exact ⟨not_findable_of_handOverName .memory r, not_findable_of_handOverName .ordered r⟩

end Thesaurus
