/-!
# Triples

Statements, and sets of statements that remember the order in which they were
made. No statement occurs twice, and the type carries that fact.

## Main results

* `toList_insert`: an insertion appends a statement that is new and changes
  nothing otherwise.
-/

namespace Thesaurus.Rdf

/-- The object of a statement. -/
inductive Object
  | iri (iri : String)
  | literal (text : String)
deriving DecidableEq, Repr, Inhabited

/-- A statement; its subject and predicate are IRIs. -/
structure Triple where
  subject : String
  predicate : String
  object : Object
deriving DecidableEq, Repr, Inhabited

/-- A set of statements in the order of their first insertion. -/
structure TripleSet where
  toList : List Triple := []
  nodup : toList.Nodup := by exact List.nodup_nil

namespace TripleSet

instance : Inhabited TripleSet := ⟨{}⟩

/-- The set without statements. -/
def empty : TripleSet := {}

/-- Whether a statement belongs to the set. -/
def contains (s : TripleSet) (t : Triple) : Bool := s.toList.contains t

/-- Adds a statement, and says whether it is new. -/
def insertNew (s : TripleSet) (t : Triple) : Bool × TripleSet :=
  if h : t ∈ s.toList then (false, s)
  else
    (true, {
      toList := s.toList ++ [t]
      nodup := List.nodup_append.2 ⟨s.nodup, by simp, by
        intro a ha b hb
        rw [List.mem_singleton.1 hb]
        exact fun heq => h (heq ▸ ha)⟩ })

/-- Adds a statement. -/
def insert (s : TripleSet) (t : Triple) : TripleSet := (s.insertNew t).2

/-- Adds statements in their order. -/
def insertAll (s : TripleSet) (triples : List Triple) : TripleSet := triples.foldl insert s

/-- The set of a list of statements. -/
def ofList (triples : List Triple) : TripleSet := empty.insertAll triples

/-- The number of statements. -/
def size (s : TripleSet) : Nat := s.toList.length

/-- The subjects, each once, in the order in which they first occur. -/
def subjects (s : TripleSet) : List String := (s.toList.map (·.subject)).eraseDups

/-- The statements about a subject. -/
def about (s : TripleSet) (subject : String) : List Triple :=
  s.toList.filter (·.subject == subject)

/-- The subjects in the order in which they first occur, each with its
statements. -/
def groups (s : TripleSet) : List (String × List Triple) :=
  s.subjects.map fun subject => (subject, s.about subject)

theorem toList_insert (s : TripleSet) (t : Triple) :
    (s.insert t).toList = if t ∈ s.toList then s.toList else s.toList ++ [t] := by
  rw [insert, insertNew]
  split <;> simp [*]

theorem insertNew_fst (s : TripleSet) (t : Triple) :
    (s.insertNew t).1 = decide (t ∉ s.toList) := by
  rw [insertNew]
  split <;> simp [*]

end TripleSet

end Thesaurus.Rdf
