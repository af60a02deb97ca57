import Thesaurus.Proofs.Rdf.Tokens
import Thesaurus.Proofs.Rdf.TripleSet
import Thesaurus.Rdf.Documents

/-!
# Documents read back

Readers of the two line-oriented formats, and what they find in the documents of
a set. An N-Triples document is read as the statements in the order of the set, a
Turtle document as the same statements subject by subject. Literals may hold any
characters; IRIs must not hold the bracket that closes them.

Texts between two tokens are read as tokens, and tokens are read as statements. For
every part of a document there are tokens that stand for its text, and what a
reader makes of them does not depend on what follows.

## Main definitions

* `NTriples.read?`, `Turtle.read?`: the statements of a document.

## Main results

* `NTriples.read?_write`, `Turtle.read?_write`: each document is read back.
* `text_documents_read_back`: both, and that they hold the same statements.
-/

namespace Thesaurus.Rdf

open Scan

/-! ## N-Triples -/

namespace NTriples

/-- The object that a token is. -/
def object? : Token → Option Object
  | .iri iri => some (.iri iri)
  | .literal text => some (.literal text)
  | _ => none

/-- The statements that tokens are: three parts and a full stop each. -/
def readTokens? : List Token → Option (List Triple)
  | [] => some []
  | .iri subject :: .iri predicate :: object :: .stop :: rest => do
    let object ← object? object
    let others ← readTokens? rest
    return { subject := subject, predicate := predicate, object := object } :: others
  | _ => none

/-- The statements of a document. -/
def read? (document : String) : Option (List Triple) := (tokens? document).bind readTokens?

/-- The token that an object is written as. -/
def objectToken : Object → Token
  | .iri iri => .iri iri
  | .literal text => .literal text

/-- The tokens of a line. -/
def lineTokens (t : Triple) : List Token :=
  [.iri t.subject, .iri t.predicate, objectToken t.object, .stop]

theorem reads_objectText {object : Object} (h : ∀ iri, object = .iri iri → '>' ∉ iri.toList) :
    Reads (objectText object).toList [objectToken object] := by
  cases object with
  | iri iri => exact reads_fullIri (h iri rfl)
  | literal text => exact reads_literalText text

theorem reads_line {t : Triple} (h : ∀ iri ∈ t.iris, '>' ∉ iri.toList) :
    Reads (line t).toList (lineTokens t) := by
  have hsubject := reads_fullIri (h _ t.subject_mem_iris)
  have hpredicate := reads_fullIri (h _ t.predicate_mem_iris)
  have hobject := reads_objectText fun iri hiri => h iri (Triple.object_mem_iris hiri)
  have hspace : Reads " ".toList [] := by decide
  have hline := (((hsubject.append hspace).append hpredicate).append hspace).append
    (hobject.append reads_stop)
  simpa [line, lineTokens] using hline

theorem readTokens?_lineTokens (t : Triple) (rest : List Token) :
    readTokens? (lineTokens t ++ rest) = (readTokens? rest).map (t :: ·) := by
  have hobject : object? (objectToken t.object) = some t.object := by
    cases t.object <;> rfl
  cases h : readTokens? rest <;> simp [lineTokens, readTokens?, hobject, h]

theorem readTokens?_lines (statements : List Triple) :
    readTokens? (statements.flatMap lineTokens) = some statements := by
  induction statements with
  | nil => rfl
  | cons t rest ih => rw [List.flatMap_cons, readTokens?_lineTokens, ih, Option.map_some]

/-- An N-Triples document is read as the statements of the set, in their order. -/
theorem read?_write {s : TripleSet} (h : ∀ iri ∈ s.iris, '>' ∉ iri.toList) :
    read? (write s) = some s.toList := by
  have htext : (write s).toList = s.toList.flatMap fun t => (line t).toList := by
    rw [write, Text.toList_concat, List.flatMap_map]
  have hlines : Reads (write s).toList (s.toList.flatMap lineTokens) := by
    rw [htext]
    exact .flatMap s.toList fun t ht => reads_line fun iri hiri =>
      h iri (TripleSet.mem_iris_of_mem ht hiri)
  rw [read?, hlines.tokens?_eq, Option.bind_some, readTokens?_lines]

end NTriples

/-! ## Turtle -/

namespace Turtle

/-- The IRI that a token is, under the declared short names. -/
def resource? (declared : List (String × String)) : Token → Option String
  | .iri iri => some iri
  | .short short name => (declared.lookup short).map (· ++ name)
  | _ => none

/-- The predicate that a token is. -/
def predicate? (declared : List (String × String)) : Token → Option String
  | .isA => some rdfType
  | t => resource? declared t

/-- The object that a token is. -/
def object? (declared : List (String × String)) : Token → Option Object
  | .literal text => some (.literal text)
  | t => (resource? declared t).map .iri

/-- Whose statements go on behind the mark at the end of a statement of this
subject. -/
def next? (subject : String) : Token → Option (Option String)
  | .semicolon => some (some subject)
  | .stop => some none
  | _ => none

/-- The statements that tokens are, behind these declarations and in a paragraph of
this subject, or between two paragraphs. A later declaration of a short name
replaces an earlier one. -/
def readTokens? (declared : List (String × String)) :
    Option String → List Token → Option (List Triple)
  | none, [] => some []
  | none, .declare :: .short short name :: .iri full :: .stop :: rest =>
    if name = "" then readTokens? ((short, full) :: declared) none rest else none
  | none, t :: rest => do
    let subject ← resource? declared t
    readTokens? declared (some subject) rest
  | some subject, predicate :: object :: mark :: rest => do
    let predicate ← predicate? declared predicate
    let object ← object? declared object
    let next ← next? subject mark
    let others ← readTokens? declared next rest
    return { subject := subject, predicate := predicate, object := object } :: others
  | some _, _ => none

/-- The statements of a document. -/
def read? (document : String) : Option (List Triple) :=
  (tokens? document).bind (readTokens? [] none)

/-! ### IRIs and other parts of statements -/

/-- What is declared behind the declarations of a document. -/
def declared : List (String × String) := namespaces.reverse

theorem lookup_declared : ∀ n ∈ namespaces, declared.lookup n.1 = some n.2 := by decide

/-- The token that an IRI is written as. -/
def iriToken (iri : String) : Token :=
  ((compact? iri).bind fun shortened => Token.ofWord? shortened.toList).getD (.iri iri)

theorem iriToken_of_compact? {iri shortened : String} (h : compact? iri = some shortened) :
    ∃ n ∈ namespaces, ∃ name, isPlainName name = true ∧ iri = n.2 ++ .ofList name ∧
      shortened = n.1 ++ ":" ++ .ofList name ∧ iriToken iri = .short n.1 (.ofList name) := by
  obtain ⟨n, hn, name, hname, hiri, hshort⟩ := exists_of_compact? h
  refine ⟨n, hn, name, hname, hiri, hshort, ?_⟩
  rw [iriToken, h, hshort, Option.bind_some, Token.ofWord?, cutFirst_short hn]
  simp

theorem resource?_iriToken (iri : String) : resource? declared (iriToken iri) = some iri := by
  cases h : compact? iri with
  | none => simp [iriToken, h, resource?]
  | some shortened =>
      obtain ⟨n, hn, name, -, hiri, -, htoken⟩ := iriToken_of_compact? h
      rw [htoken, resource?, lookup_declared n hn, Option.map_some, hiri]

/-- An IRI is read when a blank follows. -/
theorem reads_iriText {iri : String} (h : '>' ∉ iri.toList) {blank : Char}
    (hblank : isSpace blank = true) : Reads ((iriText iri).toList ++ [blank]) [iriToken iri] := by
  cases hcompact : compact? iri with
  | none =>
      have htext : iriText iri = fullIri iri := by rw [iriText, hcompact, Option.getD_none]
      have htoken : iriToken iri = .iri iri := by simp [iriToken, hcompact]
      have hspace : Reads [blank] [] := reads_spaces (by simpa using hblank)
      rw [htext, htoken]
      exact (reads_fullIri h).append hspace
  | some shortened =>
      obtain ⟨n, hn, name, hname, -, hshort, htoken⟩ := iriToken_of_compact? hcompact
      have htext : iriText iri = n.1 ++ ":" ++ .ofList name := by
        rw [iriText, hcompact, Option.getD_some, hshort]
      have hplain : ∀ c ∈ name, endsWord c = false := by
        intro c hc
        rw [isPlainName, Bool.and_eq_true, List.all_eq_true] at hname
        exact endsWord_of_plain (hname.2 c hc)
      rw [htext, htoken]
      exact reads_short hn hplain hblank

/-- The token that a predicate is written as. -/
def predicateToken (predicate : String) : Token :=
  if predicate = rdfType then .isA else iriToken predicate

theorem predicate?_of_resource? {table : List (String × String)} {t : Token} {iri : String}
    (h : resource? table t = some iri) : predicate? table t = some iri := by
  cases t with
  | isA => exact absurd h (by simp [resource?])
  | _ => exact h

theorem predicate?_predicateToken (predicate : String) :
    predicate? declared (predicateToken predicate) = some predicate := by
  unfold predicateToken
  split
  · next h => rw [predicate?, h]
  · exact predicate?_of_resource? (resource?_iriToken predicate)

theorem reads_predicateText {predicate : String} (h : '>' ∉ predicate.toList) :
    Reads ((predicateText predicate).toList ++ [' ']) [predicateToken predicate] := by
  unfold predicateText predicateToken
  split
  · decide
  · exact reads_iriText h rfl

/-- The token that an object is written as. -/
def objectToken : Object → Token
  | .iri iri => iriToken iri
  | .literal text => .literal text

theorem object?_of_resource? {table : List (String × String)} {t : Token} {iri : String}
    (h : resource? table t = some iri) : object? table t = some (.iri iri) := by
  cases t with
  | literal text => exact absurd h (by simp [resource?])
  | _ => simp [object?, h]

theorem object?_objectToken (object : Object) :
    object? declared (objectToken object) = some object := by
  cases object with
  | iri iri => exact object?_of_resource? (resource?_iriToken iri)
  | literal text => rfl

theorem reads_objectText {object : Object} (h : ∀ iri, object = .iri iri → '>' ∉ iri.toList) :
    Reads ((objectText object).toList ++ [' ']) [objectToken object] := by
  have hspace : Reads [' '] [] := rfl
  cases object with
  | iri iri => exact reads_iriText (h iri rfl) rfl
  | literal text => exact (reads_literalText text).append hspace

/-- A statement is read when a blank follows. -/
theorem reads_statement {t : Triple} (h : ∀ iri ∈ t.iris, '>' ∉ iri.toList) :
    Reads ((statement t).toList ++ [' '])
      [predicateToken t.predicate, objectToken t.object] := by
  have hpredicate := reads_predicateText (h _ t.predicate_mem_iris)
  have hobject := reads_objectText fun iri hiri => h iri (Triple.object_mem_iris hiri)
  have hfront : Reads "\n    ".toList [] := by decide
  have hstatement := (hfront.append hpredicate).append hobject
  simpa [statement] using hstatement

/-! ### Paragraphs -/

/-- A text that states these statements: read from one place it leads to another,
whatever follows. -/
def States (text : List Char) (place place' : Option String) (statements : List Triple) : Prop :=
  ∃ ts, Reads text ts ∧ ∀ rest, readTokens? declared place (ts ++ rest) =
    (readTokens? declared place' rest).map (statements ++ ·)

section Paragraphs

variable {front back : List Char} {p q r : Option String} {stated stated' : List Triple}
  {subject : String}

theorem States.append (hfront : States front p q stated) (hback : States back q r stated') :
    States (front ++ back) p r (stated ++ stated') := by
  obtain ⟨ts, hts, hread⟩ := hfront
  obtain ⟨us, hus, hread'⟩ := hback
  refine ⟨ts ++ us, hts.append hus, fun rest => ?_⟩
  rw [List.append_assoc, hread, hread', Option.map_map]
  congr 1
  funext others
  exact (List.append_assoc stated stated' others).symm

/-- A statement up to the mark behind it, which says where the next one belongs. -/
theorem states_statement {t : Triple} {mark : List Char} {token : Token} {next : Option String}
    (h : ∀ iri ∈ t.iris, '>' ∉ iri.toList) (hmark : Reads mark [token])
    (hnext : next? t.subject token = some next) :
    States ((statement t).toList ++ ' ' :: mark) (some t.subject) next [t] := by
  refine ⟨[predicateToken t.predicate, objectToken t.object, token], ?_, fun rest => ?_⟩
  · have hboth := (reads_statement h).append hmark
    simpa using hboth
  · cases hrest : readTokens? declared next rest <;>
      simp [readTokens?, predicate?_predicateToken, object?_objectToken, hnext, hrest]

/-- The statements of a paragraph as they are written. -/
def statementLines (statements : List Triple) : List Char :=
  (" ;".intercalate (statements.map statement)).toList ++ " .\n".toList

theorem statementLines_singleton (t : Triple) :
    statementLines [t] = (statement t).toList ++ [' ', '.', '\n'] := by
  simp [statementLines]

theorem statementLines_cons_cons (t u : Triple) (more : List Triple) :
    statementLines (t :: u :: more) =
      (statement t).toList ++ [' ', ';'] ++ statementLines (u :: more) := by
  simp [statementLines, String.toList_intercalate]

theorem statement_front (t : Triple) : ∃ tail, (statement t).toList = '\n' :: tail := by
  simp [statement]

theorem statementLines_front {statements : List Triple} (hne : statements ≠ []) :
    ∃ tail, statementLines statements = '\n' :: tail := by
  obtain ⟨t, others, rfl⟩ := List.exists_cons_of_ne_nil hne
  obtain ⟨tail, htail⟩ := statement_front t
  cases others with
  | nil => simp [statementLines_singleton, htail]
  | cons u more => simp [statementLines_cons_cons, htail]

theorem states_statementLines {statements : List Triple} (hne : statements ≠ [])
    (hsubject : ∀ t ∈ statements, t.subject = subject)
    (h : ∀ t ∈ statements, ∀ iri ∈ t.iris, '>' ∉ iri.toList) :
    States (statementLines statements) (some subject) none statements := by
  induction statements with
  | nil => exact absurd rfl hne
  | cons t others ih =>
      have ht : t.subject = subject := hsubject t (by simp)
      -- the mark behind a statement tells the last one from the others
      cases others with
      | nil =>
          have hmark : Reads ['.', '\n'] [.stop] := rfl
          have hlast := states_statement (h t (by simp)) hmark rfl
          rwa [ht, ← statementLines_singleton] at hlast
      | cons u more =>
          have hmark : Reads [';'] [.semicolon] := rfl
          have hinner := states_statement (h t (by simp)) hmark rfl
          rw [ht] at hinner
          rw [statementLines_cons_cons]
          exact hinner.append (ih (by simp) (fun v hv => hsubject v (by simp [hv]))
            fun v hv => h v (by simp [hv]))

theorem readTokens?_resource {table : List (String × String)} {t : Token}
    (h : resource? table t = some subject) (rest : List Token) :
    readTokens? table none (t :: rest) = readTokens? table (some subject) rest := by
  cases t with
  | declare => exact absurd h (by simp [resource?])
  | _ => simp [readTokens?, h]

/-- A subject opens its paragraph, when a blank follows. -/
theorem states_subject (h : '>' ∉ subject.toList) {blank : Char} (hblank : isSpace blank = true) :
    States ((iriText subject).toList ++ [blank]) none (some subject) [] := by
  refine ⟨[iriToken subject], reads_iriText h hblank, fun rest => ?_⟩
  rw [List.singleton_append, readTokens?_resource (resource?_iriToken subject)]
  simp

/-- A blank between two tokens states nothing. -/
theorem States.of_cons {blank : Char} (hblank : isSpace blank = true)
    (h : States (blank :: back) p q stated) : States back p q stated := by
  obtain ⟨ts, hts, hread⟩ := h
  refine ⟨ts, ?_, hread⟩
  rwa [Reads, run_space hblank] at hts

theorem states_paragraph {statements : List Triple} (hne : statements ≠ [])
    (hsubject : ∀ t ∈ statements, t.subject = subject)
    (h : ∀ t ∈ statements, ∀ iri ∈ t.iris, '>' ∉ iri.toList) :
    States (paragraph subject statements).toList none none statements := by
  -- a subject may be a word, which only a blank ends: it takes the line break in front
  -- of the first statement
  obtain ⟨tail, htail⟩ := statementLines_front hne
  have hopen : '>' ∉ subject.toList := by
    obtain ⟨t, others, rfl⟩ := List.exists_cons_of_ne_nil hne
    rw [← hsubject t (by simp)]
    exact h t (by simp) _ t.subject_mem_iris
  have hlines := states_statementLines hne hsubject h
  rw [htail] at hlines
  have hblank : States ['\n'] none none [] := ⟨[], rfl, fun rest => by simp⟩
  have hspace : isSpace '\n' = true := rfl
  have hparagraph := (hblank.append (states_subject hopen hspace)).append (hlines.of_cons hspace)
  have htext : (paragraph subject statements).toList =
      ['\n'] ++ ((iriText subject).toList ++ ['\n']) ++ tail := by
    have hsplit : (paragraph subject statements).toList =
        '\n' :: ((iriText subject).toList ++ statementLines statements) := by
      simp [paragraph, statementLines]
    simp [hsplit, htail]
  rw [htext]
  exact hparagraph

theorem states_paragraphs {groups : List (String × List Triple)}
    (h : ∀ g ∈ groups, States (paragraph g.1 g.2).toList none none g.2) :
    States (groups.flatMap fun g => (paragraph g.1 g.2).toList) none none
      (groups.flatMap (·.2)) := by
  induction groups with
  | nil => exact ⟨[], .nil, fun rest => by simp⟩
  | cons g rest ih =>
      exact (h g (by simp)).append (ih fun g' hg => h g' (by simp [hg]))

end Paragraphs

/-! ### Documents -/

/-- The tokens of a declaration. -/
def declarationTokens (n : String × String) : List Token :=
  [.declare, .short n.1 "", .iri n.2, .stop]

theorem reads_declaration {n : String × String} (hn : n ∈ namespaces) :
    Reads (declaration n.1 n.2).toList (declarationTokens n) := by
  have hclosed : ∀ n ∈ namespaces, '>' ∉ n.2.toList := by decide
  have hword : Reads ("@prefix".toList ++ [' ']) [.declare] := by decide
  have hspace : isSpace ' ' = true := rfl
  have hshort := reads_short hn (fun c hc => absurd hc List.not_mem_nil) hspace
  have hboth := ((hword.append hshort).append (reads_fullIri (hclosed n hn))).append reads_stop
  simpa [declaration, declarationTokens, fullIri] using hboth

theorem readTokens?_declarations (table : List (String × String)) (rest : List Token)
    (names : List (String × String)) :
    readTokens? table none (names.flatMap declarationTokens ++ rest) =
      readTokens? (names.reverse ++ table) none rest := by
  induction names generalizing table with
  | nil => rfl
  | cons n others ih =>
      rw [List.reverse_cons, List.append_assoc, List.singleton_append, ← ih]
      simp [declarationTokens, readTokens?]

/-- A Turtle document is read as the statements of the set, subject by subject. -/
theorem read?_write {s : TripleSet} (h : ∀ iri ∈ s.iris, '>' ∉ iri.toList) :
    read? (write s) = some s.grouped := by
  have hgroups : ∀ g ∈ s.groups, States (paragraph g.1 g.2).toList none none g.2 := by
    intro g hg
    obtain ⟨subject, hsubject, rfl⟩ := List.mem_map.1 hg
    refine states_paragraph (TripleSet.about_ne_nil hsubject)
      (fun t ht => (TripleSet.mem_about.1 ht).2) fun t ht iri hiri => ?_
    exact h iri (TripleSet.mem_iris_of_mem (TripleSet.mem_about.1 ht).1 hiri)
  obtain ⟨ts, hts, hread⟩ := states_paragraphs hgroups
  have hdeclarations := Reads.flatMap namespaces fun n hn => reads_declaration hn
  have htext : (write s).toList =
      (namespaces.flatMap fun n => (declaration n.1 n.2).toList) ++
        s.groups.flatMap fun g => (paragraph g.1 g.2).toList := by
    rw [write, String.toList_append, Text.toList_concat, Text.toList_concat, List.flatMap_map,
      List.flatMap_map]
  have hdocument : Reads (write s).toList (namespaces.flatMap declarationTokens ++ ts) := by
    rw [htext]
    exact hdeclarations.append hts
  have hall : readTokens? declared none ts = some s.grouped := by
    have hread := hread []
    rw [List.append_nil] at hread
    simpa [readTokens?, TripleSet.grouped] using hread
  rw [read?, hdocument.tokens?_eq, Option.bind_some, readTokens?_declarations, List.append_nil]
  exact hall

end Turtle

/-- Both documents are read back: the one as the statements in their order, the other as
the statements in groups, which are the same ones. -/
theorem text_documents_read_back (s : TripleSet) (h : ∀ iri ∈ s.iris, '>' ∉ iri.toList) :
    NTriples.read? (NTriples.write s) = some s.toList ∧
      ∃ grouped, Turtle.read? (Turtle.write s) = some grouped ∧ Grouped s.toList grouped ∧
        grouped.Perm s.toList :=
  ⟨NTriples.read?_write h, s.grouped, Turtle.read?_write h, s.grouped_grouped,
    s.grouped_grouped.perm⟩

/-- Statements about two terms in turn, one with a label of many characters. -/
def artStatements : TripleSet :=
  let art := "https://example.org/glossaryTerm/art"
  let cubism := "https://example.org/glossaryTerm/cubism"
  .ofList [
    { subject := art, predicate := rdfType, object := .iri (skos "Concept") },
    { subject := cubism, predicate := skos "broader", object := .iri art },
    { subject := art, predicate := skos "prefLabel", object := .literal "\"Art\"\n<a\\rt> ." }]

/-- The statements about art come together in Turtle. -/
theorem art_documents_read_back :
    (∀ iri ∈ artStatements.iris, '>' ∉ iri.toList) ∧
      NTriples.read? (NTriples.write artStatements) = some artStatements.toList ∧
      ∃ grouped, Turtle.read? (Turtle.write artStatements) = some grouped ∧
        Grouped artStatements.toList grouped ∧ grouped.map (·.subject) = [
          "https://example.org/glossaryTerm/art", "https://example.org/glossaryTerm/art",
          "https://example.org/glossaryTerm/cubism"] := by
  have hclosed : ∀ iri ∈ artStatements.iris, '>' ∉ iri.toList := by decide +kernel
  obtain ⟨hlines, grouped, hturtle, hgrouped, -⟩ := text_documents_read_back artStatements hclosed
  have hsame : grouped = artStatements.grouped :=
    Option.some.inj (hturtle.symm.trans (Turtle.read?_write hclosed))
  have hsubjects : artStatements.grouped.map (·.subject) = [
      "https://example.org/glossaryTerm/art", "https://example.org/glossaryTerm/art",
      "https://example.org/glossaryTerm/cubism"] := by decide +kernel
  exact ⟨hclosed, hlines, grouped, hturtle, hgrouped, hsame ▸ hsubjects⟩

end Thesaurus.Rdf
