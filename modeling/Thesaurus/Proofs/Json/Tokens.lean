import Mathlib.Data.List.Forall2
import Mathlib.Tactic.IntervalCases
import Mathlib.Tactic.SplitIfs
import Thesaurus.Json.Tree
import Thesaurus.Json.Value

/-!
# Tokens of printed values

A value that was printed with one part a line is read as the tokens that it is made of.
The text of a value is read on its own, whatever stands behind it, as long as that does
not continue a numeral: between the parts of a printed value there are only commas,
colons, brackets and blanks.

Numbers are natural numbers of 64 bits here, which is all that the documents of the
library hold.

## Main definitions

* `Value.IsNatural`: that all numbers of a value are natural numbers of 64 bits.
* `Value.tokens`: the tokens of a value.
* `Reads`: a text that is read as these tokens.

## Main results

* `reads_quotedText`: escaped texts are read back.
* `reads_natural`: digits are read back.
* `tokens_pretty`: a printed value is read as its tokens.
-/

namespace Thesaurus.Json

/-! ## Reading piece by piece -/

/-- Whether no numeral goes on with a character. -/
def endsNumeral (c : Char) : Bool := !(c.isDigit || c = '.' || c = 'e' || c = 'E')

/-- A text that continues no numeral. -/
def Stops (text : List Char) : Prop := ∀ c ∈ text.head?, endsNumeral c = true

/-- A text that is read as these tokens in front of any text that continues no
numeral. -/
def Reads (text : List Char) (tokens : List Token) : Prop :=
  ∀ rest, Stops rest → Lexing.idle.run (text ++ rest) = tokens ++ Lexing.idle.run rest

theorem stops_nil : Stops [] := fun _ h => nomatch h

theorem stops_cons {c : Char} (h : endsNumeral c = true) (rest : List Char) :
    Stops (c :: rest) := by
  intro d hd
  rw [← Option.some.inj hd]
  exact h

theorem Reads.append {front back : List Char} {ts us : List Token} (hfront : Reads front ts)
    (hback : Reads back us) (hstops : ∀ rest, Stops rest → Stops (back ++ rest)) :
    Reads (front ++ back) (ts ++ us) := by
  intro rest hrest
  rw [List.append_assoc, hfront _ (hstops rest hrest), hback rest hrest, List.append_assoc]

theorem run_cons {state next : Lexing} {c : Char} {ts : List Token}
    (h : state.step c = (ts, some next)) (rest : List Char) :
    state.run (c :: rest) = ts ++ next.run rest := by
  rw [Lexing.run, h]

/-! ## Texts -/

theorem hexDigit?_digitChar : ∀ k < 16, hexDigit? (Nat.digitChar k) = some k := by decide

theorem utf8Size_digitChar : ∀ k < 16, (Nat.digitChar k).utf8Size = 1 := by decide

theorem step_unit {q : Quotation} {missing k : Nat} (hmissing : 1 < missing) (hk : k < 16)
    (n : Nat) : (Lexing.unit q missing (some n)).step (Nat.digitChar k) =
      ([], some (.unit q (missing - 1) (some (n * 16 + k)))) := by
  simp [Lexing.step, hexDigit?_digitChar k hk, utf8Size_digitChar k hk, hmissing]

theorem step_lastUnit {q : Quotation} {k : Nat} (hk : k < 16) (n : Nat) :
    (Lexing.unit q 1 (some n)).step (Nat.digitChar k) =
      ([], some (.quotation (q.pushUnit (n * 16 + k)))) := by
  simp [Lexing.step, hexDigit?_digitChar k hk, utf8Size_digitChar k hk]

/-- The escape of a control character is read as the character. -/
theorem run_controlChar (read : List Char) {c : Char} (h : c.toNat < 0x20) (rest : List Char) :
    (Lexing.quotation { reversed := read }).run
        (['\\', 'u', '0', '0', Nat.digitChar (c.toNat / 16),
          Nat.digitChar (c.toNat % 16)] ++ rest) =
      (Lexing.quotation { reversed := c :: read }).run rest := by
  have hbackslash : (Lexing.quotation { reversed := read }).step '\\' =
      ([], some (.escape { reversed := read })) := rfl
  have hletter : (Lexing.escape { reversed := read }).step 'u' =
      ([], some (.unit { reversed := read } 4 (some 0))) := rfl
  have hzero : Nat.digitChar 0 = '0' := rfl
  have hpush : Quotation.pushUnit { reversed := read } c.toNat = { reversed := c :: read } := by
    have hhigh : ¬ 0xD800 ≤ c.toNat := by omega
    have hlow : ¬ 0xDC00 ≤ c.toNat := by omega
    simp [Quotation.pushUnit, hhigh, hlow]
  have hparts : ((0 * 16 + 0) * 16 + 0) * 16 + c.toNat / 16 = c.toNat / 16 := by omega
  have hwhole : c.toNat / 16 * 16 + c.toNat % 16 = c.toNat := by omega
  simp only [List.cons_append, List.nil_append]
  rw [run_cons hbackslash, run_cons hletter, ← hzero, run_cons (step_unit (by omega) (by omega) _),
    run_cons (step_unit (by omega) (by omega) _), run_cons (step_unit (by omega) (by omega) _),
    run_cons (step_lastUnit (by omega) _), hparts, hwhole, hpush]
  rfl

/-- A written character of a text is read as that character. -/
theorem run_escapedChar (read : List Char) (c : Char) (rest : List Char) :
    (Lexing.quotation { reversed := read }).run (escapedChar c ++ rest) =
      (Lexing.quotation { reversed := c :: read }).run rest := by
  unfold escapedChar
  split_ifs with hquote hbackslash hbackspace hfeed hline hreturn htab hcontrol
  · subst hquote; rfl
  · subst hbackslash; rfl
  · subst hbackspace; rfl
  · subst hfeed; rfl
  · subst hline; rfl
  · subst hreturn; rfl
  · subst htab; rfl
  · exact run_controlChar read hcontrol rest
  · have hstep : (Lexing.quotation { reversed := read }).step c =
        ([], some (.quotation { reversed := c :: read })) := by
      rw [Lexing.step, if_neg hquote, if_neg hbackslash, if_neg hcontrol]
      rfl
    rw [List.singleton_append, run_cons hstep, List.nil_append]

theorem run_escapedText (read text rest : List Char) :
    (Lexing.quotation { reversed := read }).run (text.flatMap escapedChar ++ rest) =
      (Lexing.quotation { reversed := text.reverse ++ read }).run rest := by
  induction text generalizing read with
  | nil => rfl
  | cons c others ih =>
      rw [List.flatMap_cons, List.append_assoc, run_escapedChar, ih]
      simp

/-- A text between quotes is read back. -/
theorem reads_quotedText (s : String) : Reads (quotedText s).toList [.string (.ok s)] := by
  intro rest _
  have hopen : Lexing.idle.step '"' = ([], some (.quotation {})) := rfl
  have hclose : (Lexing.quotation { reversed := s.toList.reverse }).step '"' =
      ([.string (.ok s)], some .idle) := by
    simp [Lexing.step, Quotation.value, Quotation.settle]
  have htext : (quotedText s).toList ++ rest =
      '"' :: (s.toList.flatMap escapedChar ++ '"' :: rest) := by
    simp [quotedText]
  rw [htext, run_cons hopen, List.nil_append, run_escapedText, List.append_nil, run_cons hclose]

/-! ## Numbers -/

theorem digit?_digitChar : ∀ d < 10, digit? (Nat.digitChar d) = some d := by decide

theorem gather_append {n m : Nat} {front : List Nat} (h : gather n front = (m, []))
    (back : List Nat) : gather n (front ++ back) = gather m back := by
  induction front generalizing n with
  | nil =>
      obtain ⟨rfl, -⟩ := Prod.mk.inj h
      rfl
  | cons d rest ih =>
      rw [gather] at h
      split at h
      · cases (Prod.mk.inj h).2
      · next hfits =>
          rw [List.cons_append, gather, if_neg hfits]
          exact ih h

theorem step_digit {n : Numeral} {d : Nat} (hd : d < 10) :
    (Lexing.numeral .whole n).step (Nat.digitChar d) =
      ([], some (.numeral .whole { n with whole := n.whole ++ [d] })) := by
  simp [Lexing.step, Numeral.step, digit?_digitChar d hd]

theorem step_firstDigit {d : Nat} (hpos : 0 < d) (hd : d < 10) :
    Lexing.idle.step (Nat.digitChar d) = ([], some (.numeral .whole { whole := [d] })) := by
  interval_cases d <;> rfl

/-- The digits of a positive number are read into a numeral that denotes it. -/
theorem exists_numeral (n : Nat) (hpos : 0 < n) (hmax : n ≤ maxUnsigned) :
    ∃ digits, gather 0 digits = (n, []) ∧
      ∀ rest, Lexing.idle.run (Nat.toDigits 10 n ++ rest) =
        (Lexing.numeral .whole { whole := digits }).run rest := by
  induction n using Nat.strongRecOn with
  | _ n ih =>
      by_cases hsmall : n < 10
      · refine ⟨[n], ?_, fun rest => ?_⟩
        · simp [gather, hmax]
        · rw [Nat.toDigits_of_lt_base hsmall, List.singleton_append,
            run_cons (step_firstDigit hpos hsmall), List.nil_append]
      · obtain ⟨digits, hvalue, hrun⟩ := ih (n / 10) (by omega) (by omega) (by omega)
        refine ⟨digits ++ [n % 10], ?_, fun rest => ?_⟩
        · have hwhole : n / 10 * 10 + n % 10 = n := by omega
          rw [gather_append hvalue, gather, hwhole, if_neg (by omega), gather]
        · rw [Nat.toDigits_of_base_le (by decide) (by omega), List.append_assoc, hrun,
            List.singleton_append, run_cons (step_digit (by omega)), List.nil_append]

/-- A numeral ends where a text continues none. -/
theorem run_numeral {phase : NumeralPhase} (hphase : phase = .zero ∨ phase = .whole) (n : Numeral)
    {rest : List Char} (h : Stops rest) :
    (Lexing.numeral phase n).run rest = .number n.value :: Lexing.idle.run rest := by
  cases rest with
  | nil => rcases hphase with rfl | rfl <;> rfl
  | cons c rest =>
      have hc : endsNumeral c = true := h c rfl
      simp only [endsNumeral, Bool.not_eq_true', Bool.or_eq_false_iff,
        decide_eq_false_iff_not] at hc
      obtain ⟨⟨⟨hdigit, hpoint⟩, hsmall⟩, hlarge⟩ := hc
      have hfinished : n.step phase c = .finished := by
        rcases hphase with rfl | rfl <;>
          simp [Numeral.step, digit?, hdigit, hpoint, hsmall, hlarge]
      have hstep : (Lexing.numeral phase n).step c =
          (.number n.value :: (start c).1, (start c).2) := by
        rw [Lexing.step, hfinished]
      have hidle : Lexing.idle.step c = start c := rfl
      rw [Lexing.run, Lexing.run, hstep, hidle]
      rcases start c with ⟨ts, _ | next⟩ <;> rfl

/-- The digits of a number are read back. -/
theorem reads_natural {n : Nat} (h : n ≤ maxUnsigned) :
    Reads (Number.integer n).text.toList [.number (.ok (.integer n))] := by
  intro rest hrest
  have htext : (Number.integer n).text.toList = Nat.toDigits 10 n := by
    simp [Number.text, integerText]
  rw [htext]
  rcases Nat.eq_zero_or_pos n with rfl | hpos
  · have hzero : Lexing.idle.step '0' = ([], some (.numeral .zero { whole := [0] })) := rfl
    rw [Nat.toDigits_zero, List.singleton_append, run_cons hzero, List.nil_append,
      run_numeral (.inl rfl) _ hrest]
    rfl
  · obtain ⟨digits, hvalue, hrun⟩ := exists_numeral n hpos h
    rw [hrun, run_numeral (.inr rfl) _ hrest]
    simp [Numeral.value, hvalue]

/-! ## Layout -/

theorem run_blanks {blanks : List Char} (h : ∀ c ∈ blanks, isJsonBlank c = true)
    (rest : List Char) : Lexing.idle.run (blanks ++ rest) = Lexing.idle.run rest := by
  induction blanks with
  | nil => rfl
  | cons c others ih =>
      have hstep : Lexing.idle.step c = ([], some .idle) := by
        simp [Lexing.step, start, h c (by simp)]
      rw [List.cons_append, run_cons hstep, List.nil_append]
      exact ih fun d hd => h d (by simp [hd])

/-- A text behind blanks. -/
theorem Reads.indented {blanks text : List Char} {ts : List Token}
    (hblanks : ∀ c ∈ blanks, isJsonBlank c = true) (h : Reads text ts) :
    Reads (blanks ++ text) ts := by
  intro rest hrest
  rw [List.append_assoc, run_blanks hblanks, h rest hrest]

theorem reads_nil : Reads [] [] := fun _ _ => rfl

/-- A text behind a character that is a token of its own, and blanks. -/
theorem Reads.marked {c : Char} {t : Token} (hmark : Lexing.idle.step c = ([t], some .idle))
    (blanks : List Char) (hblanks : ∀ d ∈ blanks, isJsonBlank d = true) {text : List Char}
    {ts : List Token} (h : Reads text ts) : Reads (c :: blanks ++ text) (t :: ts) := by
  intro rest hrest
  rw [List.cons_append, List.cons_append, run_cons hmark, List.append_assoc, run_blanks hblanks,
    h rest hrest]
  rfl

theorem stops_append {c : Char} (h : endsNumeral c = true) (text : List Char) :
    ∀ rest, Stops rest → Stops (c :: text ++ rest) :=
  fun rest _ => stops_cons h (text ++ rest)

theorem isJsonBlank_indent (depth : Nat) :
    ∀ c ∈ List.replicate (2 * depth) ' ', isJsonBlank c = true := by
  intro c hc
  rw [List.eq_of_mem_replicate hc]
  rfl

/-- Parts on lines of their own, with commas between them. -/
theorem reads_lines {parts : List String} {lists : List (List Token)} (depth : Nat)
    (h : List.Forall₂ (fun part ts => Reads part.toList ts) parts lists) :
    Reads (",\n".intercalate
        (parts.map (.ofList (List.replicate (2 * depth) ' ') ++ ·))).toList
      ([Token.comma].intercalate lists) := by
  have hline : ∀ {part : String} {ts : List Token}, Reads part.toList ts →
      Reads (String.ofList (List.replicate (2 * depth) ' ') ++ part).toList ts := by
    intro part ts hpart
    rw [String.toList_append, String.toList_ofList]
    exact hpart.indented (isJsonBlank_indent depth)
  rw [String.toList_intercalate]
  induction h with
  | nil => exact reads_nil
  | @cons part ts parts lists hpart hrest ih =>
      cases hrest with
      | nil => simpa using hline hpart
      | @cons next us more others hnext hmore =>
          have hcomma : Lexing.idle.step ',' = ([.comma], some .idle) := rfl
          have hall := (hline hpart).append (Reads.marked hcomma ['\n'] (by simp [isJsonBlank]) ih)
            (stops_append rfl _)
          simpa [List.intercalate_cons_cons] using hall

/-- A block is read as its brackets around the tokens of its parts. -/
theorem reads_block {parts : List String} {lists : List (List Token)} (depth : Nat)
    {opening closing : String} {o c : Char} {t u : Token}
    (hopening : opening.toList = [o]) (hclosing : closing.toList = [c])
    (ho : Lexing.idle.step o = ([t], some .idle)) (hc : Lexing.idle.step c = ([u], some .idle))
    (h : List.Forall₂ (fun part ts => Reads part.toList ts) parts lists) :
    Reads (Value.block depth opening closing parts).toList
      (t :: [Token.comma].intercalate lists ++ [u]) := by
  have hclose : Reads [c] [u] := Reads.marked hc [] (by simp) reads_nil
  unfold Value.block
  cases hparts : parts.isEmpty with
  | true =>
      obtain rfl := List.isEmpty_iff.1 hparts
      cases h
      have hall := Reads.marked ho [] (by simp) hclose
      simpa [hopening, hclosing] using hall
  | false =>
      have hend : Reads ('\n' :: List.replicate (2 * depth) ' ' ++ [c]) [u] := by
        refine hclose.indented fun d hd => ?_
        rcases List.mem_cons.1 hd with rfl | hd
        · rfl
        · exact isJsonBlank_indent depth d hd
      have hlines := (reads_lines (depth + 1) h).append hend (stops_append rfl _)
      have hall := Reads.marked ho ['\n'] (by simp [isJsonBlank]) hlines
      simpa [hopening, hclosing] using hall

/-! ## Values -/

/-- That all numbers of a value are natural numbers of 64 bits. -/
inductive Value.IsNatural : Value → Prop
  | null : IsNatural .null
  | bool (b : Bool) : IsNatural (.bool b)
  | nat {n : Nat} (h : n ≤ maxUnsigned) : IsNatural (.nat n)
  | string (s : String) : IsNatural (.string s)
  | array {items : List Value} (h : ∀ v ∈ items, IsNatural v) : IsNatural (.array items)
  | object {fields : List (String × Value)} (h : ∀ f ∈ fields, IsNatural f.2) :
      IsNatural (.object fields)

mutual

/-- The tokens of a value. -/
def Value.tokens : Value → List Token
  | .null => [.null]
  | .bool b => [.bool b]
  | .number n => [.number (.ok n)]
  | .string s => [.string (.ok s)]
  | .array items => .leftBracket :: [Token.comma].intercalate (itemTokens items) ++ [.rightBracket]
  | .object fields => .leftBrace :: [Token.comma].intercalate (fieldTokens fields) ++ [.rightBrace]

/-- The tokens of each item. -/
def itemTokens : List Value → List (List Token)
  | [] => []
  | v :: rest => v.tokens :: itemTokens rest

/-- The tokens of each field. -/
def fieldTokens : List (String × Value) → List (List Token)
  | [] => []
  | (name, v) :: rest => (.string (.ok name) :: .colon :: v.tokens) :: fieldTokens rest

end

theorem prettyItems_eq_map (depth : Nat) (items : List Value) :
    Value.prettyItems depth items = items.map (·.prettyAt depth) := by
  induction items with
  | nil => rfl
  | cons v rest ih => rw [Value.prettyItems, ih, List.map_cons]

theorem prettyFields_eq_map (depth : Nat) (fields : List (String × Value)) :
    Value.prettyFields depth fields =
      fields.map fun f => quotedText f.1 ++ ": " ++ f.2.prettyAt depth := by
  induction fields with
  | nil => rfl
  | cons f rest ih => rw [Value.prettyFields, ih, List.map_cons]

theorem itemTokens_eq_map (items : List Value) : itemTokens items = items.map (·.tokens) := by
  induction items with
  | nil => rfl
  | cons v rest ih => rw [itemTokens, ih, List.map_cons]

theorem fieldTokens_eq_map (fields : List (String × Value)) :
    fieldTokens fields = fields.map fun f => .string (.ok f.1) :: .colon :: f.2.tokens := by
  induction fields with
  | nil => rfl
  | cons f rest ih => rw [fieldTokens, ih, List.map_cons]

theorem reads_null : Reads (Value.compact .null).toList [.null] := by
  intro rest _
  have htext : (Value.compact .null).toList = ['n', 'u', 'l', 'l'] := by decide +kernel
  rw [htext]
  rfl

theorem reads_bool (b : Bool) : Reads (Value.compact (.bool b)).toList [.bool b] := by
  intro rest _
  cases b with
  | true =>
      have htext : (Value.compact (.bool true)).toList = ['t', 'r', 'u', 'e'] := by decide +kernel
      rw [htext]
      rfl
  | false =>
      have htext : (Value.compact (.bool false)).toList = ['f', 'a', 'l', 's', 'e'] := by
        decide +kernel
      rw [htext]
      rfl

/-- A printed value is read as its tokens, at whatever depth it stands. -/
theorem reads_prettyAt {v : Value} (h : v.IsNatural) :
    ∀ depth, Reads (v.prettyAt depth).toList v.tokens := by
  induction h with
  | null => exact fun _ => reads_null
  | bool b => exact fun _ => reads_bool b
  | nat h => exact fun _ => reads_natural h
  | string s => exact fun _ => reads_quotedText s
  | @array items h ih =>
      intro depth
      rw [Value.prettyAt, Value.tokens, prettyItems_eq_map, itemTokens_eq_map]
      refine reads_block depth rfl rfl rfl rfl ?_
      rw [List.forall₂_map_left_iff, List.forall₂_map_right_iff, List.forall₂_same]
      exact fun v hv => ih v hv (depth + 1)
  | @object fields h ih =>
      intro depth
      rw [Value.prettyAt, Value.tokens, prettyFields_eq_map, fieldTokens_eq_map]
      refine reads_block depth rfl rfl rfl rfl ?_
      rw [List.forall₂_map_left_iff, List.forall₂_map_right_iff, List.forall₂_same]
      intro f hf
      have hcolon : Lexing.idle.step ':' = ([.colon], some .idle) := rfl
      have hvalue := Reads.marked hcolon [' '] (by simp [isJsonBlank]) (ih f hf (depth + 1))
      have hall := (reads_quotedText f.1).append hvalue (stops_append rfl _)
      simpa using hall

/-- A printed value is read as its tokens. -/
theorem tokens_pretty {v : Value} (h : v.IsNatural) : tokens v.pretty = v.tokens := by
  have hread := reads_prettyAt h 0 [] stops_nil
  rw [List.append_nil] at hread
  rw [tokens, Value.pretty, hread]
  exact List.append_nil _

end Thesaurus.Json
