import Mathlib.Data.Finset.Insert
import Thesaurus.Rdf.TripleSet
import Thesaurus.Table

/-!
# Sets of statements with an index

A set of statements tells whether a statement is new without a search through its list. For
that it keeps the statements twice: in a list, in the order of their first insertion, and in
an index that has no order.

To take the statements subject by subject it goes through the list once. A table holds the
statements of each subject so far; a subject without any is new, and is put at the end of the
order of subjects. In that order the statements are taken out of the table at last.
-/

namespace Thesaurus.Rdf

/-- The subjects in the order in which they were met, and a table of the statements that were
met with each. -/
structure Gathering where
  order : List String := []
  gathered : Table (List Triple) := .empty
deriving Inhabited

namespace Gathering

/-- The statements about a subject so far. -/
def about (g : Gathering) (subject : String) : List Triple := (g.gathered.get? subject).getD []

/-- Puts a statement with the others about its subject. -/
def add (g : Gathering) (t : Triple) : Gathering where
  order := if (g.about t.subject).isEmpty then g.order ++ [t.subject] else g.order
  gathered := g.gathered.insert t.subject (g.about t.subject ++ [t])

/-- Gathers statements in their order. -/
def ofList (triples : List Triple) : Gathering := triples.foldl add {}

/-- Takes the statements about subjects out of a table. -/
def takeOut (gathered : Table (List Triple)) : List String → List (String × List Triple)
  | [] => []
  | subject :: rest =>
    (subject, (gathered.get? subject).getD []) :: takeOut (gathered.erase subject) rest

/-- The subjects in their order, each with its statements. -/
def groups (g : Gathering) : List (String × List Triple) := takeOut g.gathered g.order

end Gathering

/-- The statements of a set, in the order of their first insertion and as an index. -/
structure IndexedTriples where
  toList : List Triple := []
  seen : Finset Triple := ∅
deriving Inhabited

namespace IndexedTriples

/-- The set without statements. -/
def empty : IndexedTriples := {}

/-- Adds a statement unless it is there, and says whether it is new. -/
def insert (s : IndexedTriples) (t : Triple) : Bool × IndexedTriples :=
  if t ∈ s.seen then (false, s)
  else (true, { toList := s.toList ++ [t], seen := Insert.insert t s.seen })

/-- Adds statements in their order, and says of each whether it is new. -/
def insertAll (s : IndexedTriples) : List Triple → List Bool × IndexedTriples
  | [] => ([], s)
  | t :: rest =>
    let (new, s) := s.insert t
    let (flags, s) := insertAll s rest
    (new :: flags, s)

/-- The subjects in the order in which they first occur, each with its statements. -/
def bySubject (s : IndexedTriples) : List (String × List Triple) := (Gathering.ofList s.toList).groups

end IndexedTriples

end Thesaurus.Rdf
