import Thesaurus.Text.Characters

/-!
# Glossaries and terms

A glossary collects terms; a term belongs to one glossary and may hang under a
parent term. Its fully qualified name runs from the glossary through all
ancestors to the term, with points between.

Terms are never taken out of a store. A deleted term keeps its record, so that
what still refers to it can be explained, and counts as absent everywhere else.

A term without a display name is shown under its technical name in title case:
`netRevenue`, `net_revenue` and `net-revenue` all read as words. A capital
letter begins a word only after a small letter or a digit, so that abbreviations
stay together, and a word's first character takes its full capital form.

## Main definitions

* `titleCase`: a technical name as a title.
* `Glossary`, `Term`: the records.
-/

namespace Thesaurus

/-! ## Titles from names -/

/-- A title in the making. -/
structure Titling where
  /-- The characters so far, last first. -/
  reversed : List Char := []
  /-- Whether the last character was a small letter or a digit. -/
  afterSmall : Bool := false
  /-- Whether the next character begins a word. -/
  atStart : Bool := true
deriving DecidableEq, Repr

namespace Titling

/-- The characters that stand between the words of a name. -/
def isSeparator (c : Char) : Bool := c = '_' || c = '-' || c = ' '

/-- Ends the word; neither a leading nor a second space is written. -/
def breakWord (t : Titling) : Titling where
  reversed :=
    match t.reversed with
    | [] | ' ' :: _ => t.reversed
    | written => ' ' :: written

/-- Adds one character of the name. -/
def step (t : Titling) (c : Char) : Titling :=
  if isSeparator c then t.breakWord
  else
    let isNewWord := Text.isUppercase c && t.afterSmall
    let written := if isNewWord then ' ' :: t.reversed else t.reversed
    { reversed :=
        if isNewWord || t.atStart then (Text.capital c).reverse ++ written else c :: written
      afterSmall := Text.isLowercase c || c.isDigit
      atStart := false }

end Titling

/-- A technical name in title case. -/
def titleCase (name : String) : String :=
  .ofList (Text.trimEnd (name.toList.foldl Titling.step {}).reversed.reverse)

example : titleCase "usedToCalculate" = "Used To Calculate" := by decide +kernel
example : titleCase "__net_revenue-" = "Net Revenue" := by decide +kernel

/-! ## Records -/

/-- The identity of a term. -/
structure TermId where
  text : String
deriving DecidableEq, Repr, Inhabited

/-- The identity of a glossary. -/
structure GlossaryId where
  text : String
deriving DecidableEq, Repr, Inhabited

/-- A glossary. -/
structure Glossary where
  id : GlossaryId
  name : String
  displayName : Option String := none
  description : Option String := none
deriving DecidableEq, Repr, Inhabited

/-- What exports call a glossary: its display name if it has one. -/
def Glossary.label (g : Glossary) : String := g.displayName.getD g.name

/-- A term, deleted or live. -/
structure Term where
  id : TermId
  name : String
  fullName : String
  displayName : Option String := none
  glossary : GlossaryId
  parent : Option TermId := none
  description : Option String := none
  synonyms : List String := []
  deleted : Bool := false
deriving DecidableEq, Repr, Inhabited

/-- What listings carry of a term. -/
structure TermRef where
  id : TermId
  fullName : String
  displayName : String
deriving DecidableEq, Repr, Inhabited

/-- The name of something below something else. -/
def qualified (above name : String) : String := above ++ "." ++ name

namespace Term

/-- A term at the top of a glossary. -/
def topLevel (id : TermId) (g : Glossary) (name : String) : Term where
  id := id
  name := name
  fullName := qualified g.name name
  glossary := g.id

/-- The term hung under a parent. -/
def under (t parent : Term) : Term :=
  { t with fullName := qualified parent.fullName t.name, parent := some parent.id }

/-- What people see of a term: its display name unless that is missing or empty,
else its name in title case. -/
def label (t : Term) : String :=
  match t.displayName with
  | some shown => if shown.isEmpty then titleCase t.name else shown
  | none => titleCase t.name

/-- The term as listings carry it. -/
def toRef (t : Term) : TermRef where
  id := t.id
  fullName := t.fullName
  displayName := t.label

/-- The term if it is live. -/
def live? (t : Term) : Option Term := if t.deleted then none else some t

end Term

end Thesaurus
