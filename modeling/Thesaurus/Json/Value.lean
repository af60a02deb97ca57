import Thesaurus.Number.Binary64

/-!
# JSON values

Values as programs keep them, and how they are written. An integer written without
fraction and exponent stays an integer of any of the 64-bit kinds; every other number
is binary. The fields of an object stand in the order in which they are to be written.

There are two layouts of a value: on one line without blanks, and with one part a line,
each level indented by two spaces. Control characters and the two characters
that structure a text are escaped; all others stand as they are.

## Main definitions

* `Value`: the values.
* `Value.compact`, `Value.pretty`: the two layouts.
-/

namespace Thesaurus.Json

/-- A number: an integer from `-2 ^ 63` to `2 ^ 64 - 1`, or a binary one. -/
inductive Number
  | integer (value : Int)
  | binary (value : Binary64)
deriving DecidableEq, Repr, Inhabited

/-- A JSON value. -/
inductive Value
  | null
  | bool (value : Bool)
  | number (value : Number)
  | string (value : String)
  | array (items : List Value)
  | object (fields : List (String × Value))
deriving Repr, Inhabited

namespace Value

/-- A natural number as a value. -/
def nat (n : Nat) : Value := .number (.integer n)

/-- An integer as a value. -/
def int (i : Int) : Value := .number (.integer i)

/-- A text or null. -/
def optionalString : Option String → Value
  | some s => .string s
  | none => .null

/-- A list of texts. -/
def strings (texts : List String) : Value := .array (texts.map .string)

/-- The value of a field, the first if there are several. -/
def field? (key : String) : Value → Option Value
  | .object fields => (fields.find? (·.1 == key)).map (·.2)
  | _ => none

end Value

/-- Puts a field at its place among fields that are sorted by name; a field of
the same name is replaced. -/
def insertField (key : String) (value : Value) :
    List (String × Value) → List (String × Value)
  | [] => [(key, value)]
  | (k, v) :: rest =>
    if key < k then (key, value) :: (k, v) :: rest
    else if key = k then (key, value) :: rest
    else (k, v) :: insertField key value rest

/-- The fields sorted by name, of several with one name the last. -/
def sortedFields (fields : List (String × Value)) : List (String × Value) :=
  fields.foldl (fun sorted f => insertField f.1 f.2 sorted) []

/-! ## Numbers -/

/-- The text of a finite binary number: the shortest digits, positional from
`10 ^ -5` up to `10 ^ 16`, with an exponent beyond. -/
def binaryText (x : Binary64) : String :=
  let d := x.shortest
  let digits := Nat.toDigits 10 d.digits
  let point : Int := digits.length + d.scale
  let body : List Char :=
    if x.isZero then ['0', '.', '0']
    else if -5 < point && point ≤ 16 then
      if point ≤ 0 then '0' :: '.' :: List.replicate (-point).toNat '0' ++ digits
      else if digits.length ≤ point.toNat then
        digits ++ List.replicate (point.toNat - digits.length) '0' ++ ['.', '0']
      else digits.take point.toNat ++ '.' :: digits.drop point.toNat
    else
      let power := point - 1
      let mantissa := if digits.length = 1 then digits else digits.take 1 ++ '.' :: digits.drop 1
      mantissa ++ 'e' :: (if power < 0 then '-' else '+') :: Nat.toDigits 10 power.natAbs
  .ofList (if x.negative then '-' :: body else body)

/-- An integer in decimal digits. -/
def integerText (i : Int) : String :=
  .ofList (if i < 0 then '-' :: Nat.toDigits 10 i.natAbs else Nat.toDigits 10 i.natAbs)

/-- The text of a number. -/
def Number.text : Number → String
  | .integer i => integerText i
  | .binary x => binaryText x

example : (Number.integer (-40)).text = "-40" := by decide +kernel
example : (Number.binary ⟨false, Binary64.hiddenBit, 12⟩).text = "1.8446744073709552e+19" := by
  decide +kernel
example : (Number.binary ⟨true, 3 * Binary64.twoTo 51, -52⟩).text = "-1.5" := by decide +kernel

/-! ## Texts -/

/-- A character inside a written text. -/
def escapedChar (c : Char) : List Char :=
  if c = '"' then ['\\', '"']
  else if c = '\\' then ['\\', '\\']
  else if c = '\x08' then ['\\', 'b']
  else if c = '\x0c' then ['\\', 'f']
  else if c = '\n' then ['\\', 'n']
  else if c = '\r' then ['\\', 'r']
  else if c = '\t' then ['\\', 't']
  else if c.toNat < 0x20 then
    ['\\', 'u', '0', '0', Nat.digitChar (c.toNat / 16), Nat.digitChar (c.toNat % 16)]
  else [c]

/-- A text between quotes. -/
def quotedText (s : String) : String :=
  .ofList ('"' :: s.toList.flatMap escapedChar ++ ['"'])

namespace Value

/-! ## On one line -/

mutual

/-- The value on one line. -/
def compact : Value → String
  | .null => "null"
  | .bool true => "true"
  | .bool false => "false"
  | .number n => n.text
  | .string s => quotedText s
  | .array items => "[" ++ ",".intercalate (compactItems items) ++ "]"
  | .object fields => "\x7b" ++ ",".intercalate (compactFields fields) ++ "\x7d"

/-- The items, each on one line. -/
def compactItems : List Value → List String
  | [] => []
  | v :: rest => v.compact :: compactItems rest

/-- The fields, each on one line. -/
def compactFields : List (String × Value) → List String
  | [] => []
  | (name, v) :: rest => (quotedText name ++ ":" ++ v.compact) :: compactFields rest

end

/-! ## One part a line -/

/-- Parts between brackets, each on a line of its own, inside a value that stands
at the given depth. -/
def block (depth : Nat) (opening closing : String) (parts : List String) : String :=
  let indent (n : Nat) : String := .ofList (List.replicate (2 * n) ' ')
  if parts.isEmpty then opening ++ closing
  else
    opening ++ "\n" ++ ",\n".intercalate (parts.map (indent (depth + 1) ++ ·)) ++ "\n"
      ++ indent depth ++ closing

mutual

/-- The value with one part a line, standing at the given depth. -/
def prettyAt (depth : Nat) : Value → String
  | .array items => block depth "[" "]" (prettyItems (depth + 1) items)
  | .object fields => block depth "\x7b" "\x7d" (prettyFields (depth + 1) fields)
  | v => v.compact

/-- The items with one part a line. -/
def prettyItems (depth : Nat) : List Value → List String
  | [] => []
  | v :: rest => v.prettyAt depth :: prettyItems depth rest

/-- The fields with one part a line. -/
def prettyFields (depth : Nat) : List (String × Value) → List String
  | [] => []
  | (name, v) :: rest =>
    (quotedText name ++ ": " ++ v.prettyAt depth) :: prettyFields depth rest

end

/-- The value with one part a line. -/
def pretty (v : Value) : String := v.prettyAt 0

example : compact (.object [("a", .array [.nat 1, .null]), ("b", .string "\n")])
    = "\x7b\"a\":[1,null],\"b\":\"\\n\"\x7d" := by decide +kernel

end Value

end Thesaurus.Json
