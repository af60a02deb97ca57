import Mathlib.Tactic.SplitIfs
import Thesaurus.Proofs.Rdf.Vocabulary
import Thesaurus.Rdf.Documents

/-!
# Tokens of documents

The two line-oriented formats are made of the same tokens: IRIs between angle
brackets, literals between quotes, words, semicolons and full stops. A scanner
reads them character by character: an IRI ends at the first closing bracket, a
literal at the first quote that no backslash precedes, a word at a blank or at a
character that begins something else. Five escapes are undone, and no others are
known.

Texts are read piece by piece: a piece that leaves the scanner between two tokens
can stand before any other text.

## Main definitions

* `Scan.Token`, `Scan.step`, `Scan.run`: the scanner.
* `Scan.Reads`: a text between two tokens is read as these tokens.

## Main results

* `Scan.reads_fullIri`, `Scan.reads_literalText`, `Scan.reads_short`: what the
  formats write is read back.
-/

namespace Thesaurus.Rdf.Scan

/-- A token. -/
inductive Token
  /-- An IRI in full. -/
  | iri (iri : String)
  /-- A literal. -/
  | literal (text : String)
  /-- A short name and a local name around a colon. -/
  | short (short name : String)
  /-- The word `a`. -/
  | isA
  /-- The word `@prefix`. -/
  | declare
  | semicolon
  | stop
deriving DecidableEq, Repr

/-- The token that a word is. -/
def Token.ofWord? (word : List Char) : Option Token :=
  match Text.cutFirst ':' word with
  | some (front, name) => some (.short (.ofList front) (.ofList name))
  | none =>
    if word = ['a'] then some .isA
    else if word = "@prefix".toList then some .declare
    else none

/-- Where the scanner stands, with what it has read of a token. -/
inductive Mode
  /-- Between two tokens. -/
  | gap
  | iri (read : List Char)
  | literal (read : List Char)
  /-- In a literal, behind a backslash. -/
  | escape (read : List Char)
  | word (read : List Char)
deriving DecidableEq, Repr

/-- The blanks between tokens. -/
def isSpace (c : Char) : Bool := c = ' ' || c = '\n' || c = '\r' || c = '\t'

/-- Whether a word cannot go on with a character. -/
def endsWord (c : Char) : Bool := isSpace c || c = '<' || c = '"' || c = ';' || c = '.'

/-- What a character does between two tokens. -/
def start (c : Char) : List Token × Mode :=
  if isSpace c then ([], .gap)
  else if c = '<' then ([], .iri [])
  else if c = '"' then ([], .literal [])
  else if c = ';' then ([.semicolon], .gap)
  else if c = '.' then ([.stop], .gap)
  else ([], .word [c])

/-- The character that an escape stands for. -/
def unescaped? (c : Char) : Option Char :=
  if c = '\\' then some '\\'
  else if c = '"' then some '"'
  else if c = 'n' then some '\n'
  else if c = 'r' then some '\r'
  else if c = 't' then some '\t'
  else none

/-- Reads a character: the tokens that end with it, and where the scanner stands
then. -/
def step : Mode → Char → Option (List Token × Mode)
  | .gap, c => some (start c)
  | .iri read, c =>
    if c = '>' then some ([.iri (.ofList read)], .gap) else some ([], .iri (read ++ [c]))
  | .literal read, c =>
    if c = '"' then some ([.literal (.ofList read)], .gap)
    else if c = '\\' then some ([], .escape read)
    else some ([], .literal (read ++ [c]))
  | .escape read, c => (unescaped? c).map fun d => ([], .literal (read ++ [d]))
  | .word read, c =>
    if endsWord c then (Token.ofWord? read).map fun t => (t :: (start c).1, (start c).2)
    else some ([], .word (read ++ [c]))

/-- Reads a text. -/
def run : Mode → List Char → Option (List Token × Mode)
  | m, [] => some ([], m)
  | m, c :: rest => do
    let (tokens, m) ← step m c
    let (more, m) ← run m rest
    return (tokens ++ more, m)

/-- The tokens of a document. -/
def tokens? (document : String) : Option (List Token) :=
  match run .gap document.toList with
  | some (tokens, .gap) => some tokens
  | _ => none

/-! ## Reading piece by piece -/

variable {m m' m'' : Mode} {front back cs : List Char} {ts us : List Token}

theorem run_append (hfront : run m front = some (ts, m')) (hback : run m' back = some (us, m'')) :
    run m (front ++ back) = some (ts ++ us, m'') := by
  induction front generalizing m ts with
  | nil =>
      obtain ⟨rfl, rfl⟩ := Prod.mk.inj (Option.some.inj hfront)
      exact hback
  | cons c rest ih =>
      obtain ⟨⟨first, m₁⟩, hstep, hrest⟩ := Option.bind_eq_some_iff.1 hfront
      obtain ⟨⟨more, m₂⟩, hrun, hboth⟩ := Option.bind_eq_some_iff.1 hrest
      obtain ⟨rfl, rfl⟩ := Prod.mk.inj (Option.some.inj hboth)
      simp [run, hstep, ih hrun]

theorem run_singleton (m : Mode) (c : Char) : run m [c] = step m c := by
  cases h : step m c with
  | none => simp [run, h]
  | some result => simp [run, h]

/-- A text that is read as these tokens from one gap between tokens to the next. -/
def Reads (cs : List Char) (ts : List Token) : Prop := run .gap cs = some (ts, .gap)

instance : Decidable (Reads cs ts) :=
  inferInstanceAs (Decidable (run .gap cs = some (ts, .gap)))

namespace Reads

theorem nil : Reads [] [] := rfl

theorem append (hfront : Reads front ts) (hback : Reads back us) :
    Reads (front ++ back) (ts ++ us) := run_append hfront hback

theorem flatMap {α : Type} {text : α → List Char} {tokens : α → List Token} (items : List α)
    (h : ∀ a ∈ items, Reads (text a) (tokens a)) :
    Reads (items.flatMap text) (items.flatMap tokens) := by
  induction items with
  | nil => exact nil
  | cons a rest ih =>
      rw [List.flatMap_cons, List.flatMap_cons]
      exact (h a (by simp)).append (ih fun b hb => h b (by simp [hb]))

theorem tokens?_eq {document : String} (h : Reads document.toList ts) :
    tokens? document = some ts := by
  rw [tokens?, h]

end Reads

theorem run_space {blank : Char} (h : isSpace blank = true) (rest : List Char) :
    run .gap (blank :: rest) = run .gap rest := by
  cases hrest : run .gap rest <;> simp [run, step, start, h, hrest]

theorem reads_spaces (h : ∀ c ∈ cs, isSpace c = true) : Reads cs [] := by
  induction cs with
  | nil => exact .nil
  | cons c rest ih =>
      rw [Reads, run_space (h c (by simp))]
      exact ih fun d hd => h d (by simp [hd])

theorem reads_stop : Reads " .\n".toList [.stop] := by decide

/-! ## IRIs -/

theorem run_iri {read : List Char} (h : '>' ∉ cs) :
    run (.iri read) cs = some ([], .iri (read ++ cs)) := by
  induction cs generalizing read with
  | nil => simp [run]
  | cons c rest ih =>
      simp only [List.mem_cons, not_or] at h
      simp [run, step, Ne.symm h.1, ih h.2]

theorem reads_fullIri {iri : String} (h : '>' ∉ iri.toList) :
    Reads (fullIri iri).toList [.iri iri] := by
  have hclose : run (.iri iri.toList) ['>'] = some ([.iri iri], .gap) := by
    rw [run_singleton, step, if_pos rfl, String.ofList_toList]
  have hopen : run .gap ['<'] = some ([], .iri []) := rfl
  have htext : (fullIri iri).toList = ['<'] ++ (iri.toList ++ ['>']) := by
    simp [fullIri]
  rw [htext]
  exact run_append hopen (run_append (run_iri h) hclose)

/-! ## Literals -/

/-- A written character of a literal is read as that character. -/
theorem run_literalChar (read : List Char) (c : Char) :
    run (.literal read) (literalChar c) = some ([], .literal (read ++ [c])) := by
  unfold literalChar
  split_ifs with hbackslash hquote hline hreturn htab
  · subst hbackslash; rfl
  · subst hquote; rfl
  · subst hline; rfl
  · subst hreturn; rfl
  · subst htab; rfl
  · rw [run_singleton, step, if_neg hquote, if_neg hbackslash]

theorem run_literal (read text : List Char) :
    run (.literal read) (text.flatMap literalChar) = some ([], .literal (read ++ text)) := by
  induction text generalizing read with
  | nil => simp [run]
  | cons c rest ih =>
      rw [List.flatMap_cons, List.append_cons]
      exact run_append (run_literalChar read c) (ih (read ++ [c]))

theorem reads_literalText (text : String) :
    Reads (literalText text).toList [.literal text] := by
  have hclose : run (.literal text.toList) ['"'] = some ([.literal text], .gap) := by
    rw [run_singleton, step, if_pos rfl, String.ofList_toList]
  have hopen : run .gap ['"'] = some ([], .literal []) := rfl
  have htext : (literalText text).toList =
      ['"'] ++ (text.toList.flatMap literalChar ++ ['"']) := by
    simp [literalText]
  rw [htext]
  exact run_append hopen (run_append (run_literal [] text.toList) hclose)

/-! ## Words -/

theorem run_word {read : List Char} (h : ∀ c ∈ cs, endsWord c = false) :
    run (.word read) cs = some ([], .word (read ++ cs)) := by
  induction cs generalizing read with
  | nil => simp [run]
  | cons c rest ih =>
      have hc : endsWord c = false := h c (by simp)
      simp [run, step, hc, ih fun d hd => h d (by simp [hd])]

theorem start_of_not_endsWord {c : Char} (h : endsWord c = false) : start c = ([], .word [c]) := by
  simp only [endsWord, Bool.or_eq_false_iff, decide_eq_false_iff_not] at h
  simp [start, h]

/-- A word is read when a blank follows. -/
theorem reads_word {word : List Char} {t : Token} {blank : Char} (hne : word ≠ [])
    (hword : ∀ c ∈ word, endsWord c = false) (ht : Token.ofWord? word = some t)
    (hblank : isSpace blank = true) : Reads (word ++ [blank]) [t] := by
  obtain ⟨c, rest, rfl⟩ := List.exists_cons_of_ne_nil hne
  have hopen : run .gap [c] = some ([], .word [c]) := by
    rw [run_singleton, step, start_of_not_endsWord (hword c (by simp))]
  have hrest : run (.word [c]) rest = some ([], .word (c :: rest)) :=
    run_word fun d hd => hword d (by simp [hd])
  have hclose : run (.word (c :: rest)) [blank] = some ([t], .gap) := by
    rw [run_singleton]
    simp [step, start, endsWord, hblank, ht]
  exact run_append (run_append hopen hrest) hclose

theorem endsWord_of_plain {c : Char} (h : (c.isAlphanum || c = '_' || c = '-') = true) :
    endsWord c = false := by
  have hnone : [' ', '\n', '\r', '\t', '<', '"', ';', '.'].all
      (fun d => !(d.isAlphanum || d = '_' || d = '-')) = true := by decide
  have hc : c ∉ [' ', '\n', '\r', '\t', '<', '"', ';', '.'] := by
    intro hmem
    have hmark := List.all_eq_true.1 hnone c hmem
    rw [h] at hmark
    exact absurd hmark (by decide)
  simp only [List.mem_cons, List.not_mem_nil, or_false, not_or] at hc
  simp [endsWord, isSpace, hc]

theorem endsWord_namespaces : ∀ n ∈ namespaces, ∀ c ∈ n.1.toList, endsWord c = false := by
  have hall : ∀ n ∈ namespaces, n.1.toList.all (fun c => !endsWord c) = true := by decide
  intro n hn c hc
  simpa using List.all_eq_true.1 (hall n hn) c hc

/-- A short form is read when a blank follows. -/
theorem reads_short {n : String × String} (hn : n ∈ namespaces) {name : List Char}
    (hname : ∀ c ∈ name, endsWord c = false) {blank : Char} (hblank : isSpace blank = true) :
    Reads ((n.1 ++ ":" ++ .ofList name : String).toList ++ [blank])
      [.short n.1 (.ofList name)] := by
  refine reads_word (by simp) ?_ ?_ hblank
  · intro c hc
    simp only [String.toList_append, List.append_assoc, List.mem_append,
      String.toList_ofList] at hc
    rcases hc with hfront | hcolon | hback
    · exact endsWord_namespaces n hn c hfront
    · rw [List.mem_singleton.1 hcolon]
      rfl
    · exact hname c hback
  · simp only [Token.ofWord?, cutFirst_short hn, String.ofList_toList]

end Thesaurus.Rdf.Scan
