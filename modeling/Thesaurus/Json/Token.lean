import Thesaurus.Json.Problem
import Thesaurus.Json.Value

/-!
# JSON tokens

A JSON text as a list of tokens, read in one pass with a state that says what
the last characters began. Nothing is refused early: where the characters stop
making sense the list ends with `Token.broken`, so that a reader of the tokens
meets the problems of a text in their order from left to right.

Two kinds of token have the right shape and still denote nothing: a number
beyond the binary range and a text with half of a surrogate pair. They carry the
reason instead of a value, and it depends on the reader whether that matters. So
it does where such a text breaks off later: the reason then has both, the half
that stands alone and what breaks the text off.
-/

namespace Thesaurus.Json

/-- The smallest meaningful pieces of a JSON text. -/
inductive Token
  | leftBracket
  | rightBracket
  | leftBrace
  | rightBrace
  | comma
  | colon
  | null
  | bool (value : Bool)
  | number (value : Except Malformation Number)
  | string (value : Except Malformation String)
  | broken (why : Malformation)
deriving Repr, Inhabited

/-! ## Numerals -/

/-- The written form of a number, its digits in order. -/
structure Numeral where
  negative : Bool := false
  whole : List Nat := []
  fraction : List Nat := []
  /-- Whether a fraction or an exponent was written. -/
  isBinary : Bool := false
  exponentNegative : Bool := false
  exponent : List Nat := []
deriving DecidableEq, Repr, Inhabited

/-- The largest unsigned integer of 64 bits. -/
def maxUnsigned : Nat := UInt64.size - 1

/-- Reads digits into an integer for as long as it stays within 64 bits, and
returns the digits that are left. -/
def gather (n : Nat) : List Nat → Nat × List Nat
  | [] => (n, [])
  | d :: rest => if maxUnsigned < n * 10 + d then (n, d :: rest) else gather (n * 10 + d) rest

/-- Divides by `10 ^ 308` as often as the exponent asks, then by the power of ten
that is left. -/
def scaleDown (x : Binary64) : Nat → Nat → Binary64
  | 0, _ => x
  | fuel + 1, k =>
    if k ≤ 308 then (x.div? (.powerOfTen k)).getD x
    else if x.isZero then x
    else scaleDown ((x.div? (.powerOfTen 308)).getD x) fuel (k - 308)

/-- The binary number `significand · 10 ^ exponent`, in at most one step upwards
and as many steps downwards as are needed. -/
def binaryOfParts? (significand : Nat) (exponent : Int) : Option Binary64 :=
  let x := Binary64.ofNat64 significand
  if 0 ≤ exponent then
    if exponent ≤ 308 then x.mul? (.powerOfTen exponent.toNat)
    else if x.isZero then some x
    else none
  else
    -- Four steps bring every 64-bit significand down to zero.
    some (scaleDown x 5 (-exponent).toNat)

/-- The largest exponent whose digits are still read as such. -/
def maxExponentRead : Nat := 0x7FFFFFFF

/-- The number that a numeral denotes, unless it is beyond the binary range. -/
def Numeral.value (n : Numeral) : Except Malformation Number :=
  let (whole, unreadWhole) := gather 0 n.whole
  if !n.isBinary && unreadWhole.isEmpty then
    if !n.negative then .ok (.integer whole)
    else if whole = 0 || UInt64.size / 2 < whole then
      .ok (.binary { Binary64.ofNat64 whole with negative := true })
    else .ok (.integer (-(whole : Int)))
  else
    let (significand, unreadFraction) := gather whole n.fraction
    let point : Int := (unreadWhole.length : Int)
      - ((n.fraction.length - unreadFraction.length : Nat) : Int)
    let written := n.exponent.foldl (fun e d => e * 10 + d) 0
    let magnitude :=
      if maxExponentRead < written then
        if significand != 0 && !n.exponentNegative then none
        else some { mantissa := 0, exponent := Binary64.minExponent }
      else
        binaryOfParts? significand
          (if n.exponentNegative then point - written else point + written)
    match magnitude with
    | some x => .ok (.binary { x with negative := n.negative })
    | none => .error .outOfRange

/-- How far a numeral has been read. -/
inductive NumeralPhase
  /-- A sign, and a digit has to follow. -/
  | sign
  /-- A zero, after which no digit of the whole part may follow. -/
  | zero
  | whole
  /-- A point, and a digit has to follow. -/
  | point
  | fraction
  /-- The exponent mark, and a sign or a digit has to follow. -/
  | mark
  /-- The sign of the exponent, and a digit has to follow. -/
  | markSign
  | exponent
deriving DecidableEq, Repr, Inhabited

/-- What a character does to a numeral. -/
inductive NumeralStep
  | more (phase : NumeralPhase) (numeral : Numeral)
  /-- The numeral ended before this character. -/
  | finished
  | broken
deriving Repr

/-- The value of a decimal digit. -/
def digit? (c : Char) : Option Nat :=
  if c.isDigit then some (c.toNat - 48) else none

/-- Reads one character of a numeral. -/
def Numeral.step (n : Numeral) (phase : NumeralPhase) (c : Char) : NumeralStep :=
  let afterWhole : NumeralStep :=
    if c = '.' then .more .point { n with isBinary := true }
    else if c = 'e' || c = 'E' then .more .mark { n with isBinary := true }
    else .finished
  match phase, digit? c with
  | .sign, some 0 => .more .zero { n with whole := [0] }
  | .sign, some d => .more .whole { n with whole := [d] }
  | .sign, none => .broken
  | .zero, some _ => .broken
  | .zero, none => afterWhole
  | .whole, some d => .more .whole { n with whole := n.whole ++ [d] }
  | .whole, none => afterWhole
  | .point, some d => .more .fraction { n with fraction := [d] }
  | .point, none => .broken
  | .fraction, some d => .more .fraction { n with fraction := n.fraction ++ [d] }
  | .fraction, none => if c = 'e' || c = 'E' then .more .mark n else .finished
  | .mark, some d => .more .exponent { n with exponent := [d] }
  | .mark, none =>
    if c = '+' then .more .markSign n
    else if c = '-' then .more .markSign { n with exponentNegative := true }
    else .broken
  | .markSign, some d => .more .exponent { n with exponent := [d] }
  | .markSign, none => .broken
  | .exponent, some d => .more .exponent { n with exponent := n.exponent ++ [d] }
  | .exponent, none => .finished

/-- Whether a numeral may end in this phase. -/
def NumeralPhase.isComplete : NumeralPhase → Bool
  | .zero | .whole | .fraction | .exponent => true
  | .sign | .point | .mark | .markSign => false

/-! ## Texts -/

/-- A text between quotes, as far as it has been read. -/
structure Quotation where
  /-- The characters so far, last first. -/
  reversed : List Char := []
  /-- How the first half of a surrogate pair that stood alone did so. -/
  flaw : Option SurrogateFlaw := none
  /-- The first half of a surrogate pair that waits for the second. -/
  pending : Option Nat := none
deriving DecidableEq, Repr, Inhabited

namespace Quotation

/-- Notes a flaw, unless there is one already. -/
def withFlaw (q : Quotation) (flaw : SurrogateFlaw) : Quotation :=
  { q with flaw := q.flaw.or (some flaw), pending := none }

/-- Notes the flaw of a first half that anything but an escape follows. -/
def settle (q : Quotation) : Quotation :=
  if q.pending.isSome then q.withFlaw .unpaired else q

/-- Adds a character. -/
def push (q : Quotation) (c : Char) : Quotation :=
  { q.settle with reversed := c :: q.reversed }

/-- Adds a UTF-16 unit given by its escape. -/
def pushUnit (q : Quotation) (unit : Nat) : Quotation :=
  let isHigh := 0xD800 ≤ unit && unit < 0xDC00
  let isLow := 0xDC00 ≤ unit && unit < 0xE000
  match q.pending with
  | some high =>
    if isLow then
      { q with
        reversed := Char.ofNat (0x10000 + (high - 0xD800) * 0x400 + (unit - 0xDC00)) :: q.reversed
        pending := none }
    else q.withFlaw .lone
  | none =>
    if isHigh then { q with pending := some unit }
    else if isLow then q.withFlaw .lone
    else { q with reversed := Char.ofNat unit :: q.reversed }

/-- The text, if every surrogate was one of a pair. -/
def value (q : Quotation) : Except Malformation String :=
  match q.settle.flaw with
  | some flaw => .error (.surrogate flaw none)
  | none => .ok (.ofList q.reversed.reverse)

/-- The token of a quotation that breaks off here. -/
def breakOff (q : Quotation) (why : QuotationBreak) : Token :=
  match q.flaw with
  | some flaw => .broken (.surrogate flaw (some why))
  | none => .broken (.quotation why)

end Quotation

/-- The character that a one-letter escape stands for. -/
def escaped? : Char → Option Char
  | '"' => some '"'
  | '\\' => some '\\'
  | '/' => some '/'
  | 'b' => some '\x08'
  | 'f' => some '\x0c'
  | 'n' => some '\n'
  | 'r' => some '\r'
  | 't' => some '\t'
  | _ => none

/-- The value of a hexadecimal digit of either case. -/
def hexDigit? (c : Char) : Option Nat :=
  if c.isDigit then some (c.toNat - 48)
  else if 'a' ≤ c && c ≤ 'f' then some (c.toNat - 87)
  else if 'A' ≤ c && c ≤ 'F' then some (c.toNat - 55)
  else none

/-! ## Reading -/

/-- What the characters so far have begun. -/
inductive Lexing
  /-- Nothing: a token may start. -/
  | idle
  /-- One of the three words, of which `rest` has to follow. -/
  | word (rest : List Char) (token : Token)
  | numeral (phase : NumeralPhase) (numeral : Numeral)
  | quotation (text : Quotation)
  /-- A backslash inside a text. -/
  | escape (text : Quotation)
  /-- The escape of a UTF-16 unit, of which `missing` bytes have to follow; it has a
  value as long as they are hexadecimal digits. -/
  | unit (text : Quotation) (missing : Nat) (value : Option Nat)
deriving Repr

/-- Blanks between tokens. -/
def isJsonBlank (c : Char) : Bool := c = ' ' || c = '\n' || c = '\t' || c = '\r'

/-- What a character does between two tokens: it is a token of its own or begins
one. -/
def start (c : Char) : List Token × Option Lexing :=
  if isJsonBlank c then ([], some .idle)
  else match c with
    | '[' => ([.leftBracket], some .idle)
    | ']' => ([.rightBracket], some .idle)
    | '\x7b' => ([.leftBrace], some .idle)
    | '\x7d' => ([.rightBrace], some .idle)
    | ',' => ([.comma], some .idle)
    | ':' => ([.colon], some .idle)
    | '"' => ([], some (.quotation {}))
    | 'n' => ([], some (.word ['u', 'l', 'l'] .null))
    | 't' => ([], some (.word ['r', 'u', 'e'] (.bool true)))
    | 'f' => ([], some (.word ['a', 'l', 's', 'e'] (.bool false)))
    | '-' => ([], some (.numeral .sign { negative := true }))
    | c =>
      match digit? c with
      | some 0 => ([], some (.numeral .zero { whole := [0] }))
      | some d => ([], some (.numeral .whole { whole := [d] }))
      | none => ([.broken .value], none)

/-- The length of the escape of a UTF-16 unit behind its letter, in bytes. Only an
escape of this length is looked at, so a shorter one is the end of the text. -/
def unitLength : Nat := 4

/-- Reads one character: the tokens that it completes and what it leaves begun,
nothing if the text is broken there. -/
def Lexing.step (state : Lexing) (c : Char) : List Token × Option Lexing :=
  match state with
  | .idle => start c
  | .word [] token => ([token, .broken .value], none)
  | .word [last] token => if c = last then ([token], some .idle) else ([.broken .word], none)
  | .word (next :: rest) token =>
    if c = next then ([], some (.word rest token)) else ([.broken .word], none)
  | .numeral phase n =>
    match n.step phase c with
    | .more phase n => ([], some (.numeral phase n))
    | .finished =>
      let (tokens, state) := start c
      (.number n.value :: tokens, state)
    | .broken => ([.broken .numeral], none)
  | .quotation q =>
    if c = '"' then ([.string q.value], some .idle)
    else if c = '\\' then ([], some (.escape q))
    else if c.toNat < 0x20 then ([q.settle.breakOff .control], none)
    else ([], some (.quotation (q.push c)))
  | .escape q =>
    if c = 'u' then ([], some (.unit q unitLength (some 0)))
    else
      match escaped? c with
      | some c => ([], some (.quotation (q.push c)))
      | none => ([q.settle.breakOff .escape], none)
  | .unit q missing value =>
    let value := value.bind fun n => (hexDigit? c).map (n * 16 + ·)
    if c.utf8Size < missing then ([], some (.unit q (missing - c.utf8Size) value))
    else
      match value with
      | some n => ([], some (.quotation (q.pushUnit n)))
      | none => ([q.breakOff .escape], none)

/-- The token that the end of the text completes. -/
def Lexing.finish : Lexing → List Token
  | .idle => []
  | .word _ _ => [.broken .wordEnds]
  | .numeral phase n =>
    if phase.isComplete then [.number n.value] else [.broken .numeralEnds]
  | .quotation q | .escape q | .unit q _ _ => [q.breakOff .ends]

/-- The tokens from a state on. -/
def Lexing.run (state : Lexing) : List Char → List Token
  | [] => state.finish
  | c :: rest =>
    match state.step c with
    | (tokens, some next) => tokens ++ next.run rest
    | (tokens, none) => tokens

/-- The tokens of a text. -/
def tokens (text : String) : List Token := Lexing.idle.run text.toList

end Thesaurus.Json
