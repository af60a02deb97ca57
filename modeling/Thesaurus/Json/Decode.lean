import Thesaurus.Json.Problem
import Thesaurus.Json.Tree

/-!
# Decoding

Decoders read a document into the types of the library. A document comes either
as text, through the reading tree, or as a value that is already at hand; the two
differ in three rules only, and those are the places where a decoder asks for
the `Source`:

* a text may nest to a limited depth, counted for the values that are kept;
* an array that is too long for a record breaks a text off, and is a problem of
  length for a value;
* a choice is spelled as a text or as an object with one field; of a text
  anything else is malformed, of a value it is of the wrong type.

A record is decoded into a starting record whose fields are overwritten one by
one, in the order of the document. So the first problem in the document is the
one that is reported, and fields that are missing are reported last.

## Main definitions

* `Decoder`: how values of a type are read.
* `Field`, `Decoder.record`: records from objects and from arrays.
* `ofText`, `ofValue`: decoding from the two sources.
-/

namespace Thesaurus.Json

/-- Where a document comes from. -/
inductive Source
  /-- A text, inside which values may nest `room` levels deeper. -/
  | text (room : Nat)
  | value
deriving DecidableEq, Repr

/-- The levels of nesting that a text may have. -/
def maxDepth : Nat := 127

/-- The source one level deeper. -/
def Source.enter : Source → Except Problem Source
  | .text 0 => .error (.malformed .tooDeep)
  | .text (room + 1) => .ok (.text room)
  | .value => .ok .value

/-- A way to read values of type `α`. -/
structure Decoder (α : Type) where
  decode : Source → Tree → Except Problem α

/-- The problem of a tree that is not of the expected kind: its text may be
malformed right there. -/
def Tree.isNot (t : Tree) (expected : String) : Problem :=
  match t with
  | .null => .wrongType .null expected
  | .bool b => .wrongType (.bool b) expected
  | .number (.ok n) => .wrongType (.number n) expected
  | .string (.ok s) => .wrongType (.string s) expected
  | .array _ _ => .wrongType .sequence expected
  | .object _ _ => .wrongType .map expected
  | .number (.error why) | .string (.error why) | .broken why => .malformed why

/-- Passes on the value of an array or object whose closing bracket is there. -/
def closing {α : Type} (missing : Option Malformation) (a : α) : Except Problem α :=
  match missing with
  | none => .ok a
  | some why => .error (.malformed why)

namespace Decoder

/-! ## Plain values -/

/-- Any text, under the name that messages give to it. -/
def text (expected : String) : Decoder String where
  decode _
    | .string (.ok s) => .ok s
    | t => .error (t.isNot expected)

/-- Any text. -/
def string : Decoder String := text "a string"

/-- A truth value. -/
def bool : Decoder Bool where
  decode _
    | .bool b => .ok b
    | t => .error (t.isNot "a boolean")

/-- A natural number of 64 bits, under the name that messages give to it. -/
def natural (name : String) : Decoder Nat where
  decode _
    | .number (.ok (.integer (.ofNat n))) => .ok n
    | .number (.ok (.integer i)) => .error (.wrongValue (.number (.integer i)) name)
    | t => .error (t.isNot name)

/-- A value or null. -/
def optional {α : Type} (d : Decoder α) : Decoder (Option α) where
  decode source
    | .null => .ok none
    | t => (d.decode source t).map some

/-- The items in their order, from the first on. -/
def items {α : Type} (d : Decoder α) (source : Source) : List Tree → Except Problem (List α)
  | [] => .ok []
  | t :: rest => do
    let item ← d.decode source t
    let others ← items d source rest
    return item :: others

/-- A list of values of one kind. -/
def list {α : Type} (d : Decoder α) : Decoder (List α) where
  decode source
    | .array ts missing => do
      let all ← items d (← source.enter) ts
      closing missing all
    | t => .error (t.isNot "a sequence")

/-! ## Choices -/

/-- Why there is no choice where a text is broken: neither a word nor a numeral
can begin one, so it does not matter what is wrong with them. -/
def noChoice : Malformation → Malformation
  | .word | .wordEnds | .numeral | .numeralEnds => .value
  | why => why

/-- The value of a name among the known ones. -/
def chosen {α : Type} (known : List (String × α)) (name : String) : Except Problem α :=
  match known.find? (·.1 == name) with
  | some (_, a) => .ok a
  | none => .error (.unknownVariant name (known.map (·.1)))

/-- Reads the null that stands beside the name of a choice in an object. -/
def chosenNull : Tree → Except Problem Unit
  | .null => .ok ()
  | t => .error (t.isNot "unit")

/-- A choice in an object of a text: the name is read before it is known that the
object has no other field. -/
def chosenInText {α : Type} (known : List (String × α))
    (fields : List (Except Malformation String × Tree)) (missing : Option Malformation) :
    Except Problem α :=
  match fields, missing with
  | [], none => .error (.malformed .value)
  | [], some why => .error (.malformed why)
  | (.error why, _) :: _, _ => .error (.malformed why)
  | (.ok name, t) :: rest, missing => do
    let a ← chosen known name
    chosenNull t
    match rest, missing with
    | [], none => return a
    | [], some .objectEnds => throw (.malformed .objectEnds)
    | _, _ => throw (.malformed .value)

/-- One of several names, as a text or as the only field of an object, whose
value is then null. -/
def choice {α : Type} (known : List (String × α)) : Decoder α where
  decode source
    | .string (.ok name) => chosen known name
    | .object fields missing => do
      let _ ← source.enter
      match source, fields with
      | .text _, fields => chosenInText known fields missing
      | .value, [(.ok name, t)] =>
        let a ← chosen known name
        chosenNull t
        return a
      | .value, _ => throw (.wrongValue .map "map with a single key")
    | t =>
      match source, t with
      | .value, t => .error (t.isNot "string or map")
      | .text _, .string (.error why) | .text _, .broken why =>
        .error (.malformed (noChoice why))
      | .text _, _ => .error (.malformed .value)

/-! ## Any value -/

mutual

/-- The value of a tree. -/
def keep (source : Source) : Tree → Except Problem Value
  | .null => .ok .null
  | .bool b => .ok (.bool b)
  | .number (.ok n) => .ok (.number n)
  | .string (.ok s) => .ok (.string s)
  | .array ts missing => do
    let all ← keepAll (← source.enter) ts
    closing missing (.array all)
  | .object fields missing => do
    let all ← keepFields (← source.enter) fields
    closing missing (.object (sortedFields all))
  | .number (.error why) | .string (.error why) | .broken why => .error (.malformed why)

/-- The values of the items. -/
def keepAll (source : Source) : List Tree → Except Problem (List Value)
  | [] => .ok []
  | t :: rest => do
    let v ← keep source t
    let others ← keepAll source rest
    return v :: others

/-- The fields with their values. -/
def keepFields (source : Source) :
    List (Except Malformation String × Tree) → Except Problem (List (String × Value))
  | [] => .ok []
  | (.ok name, t) :: rest => do
    let v ← keep source t
    let others ← keepFields source rest
    return (name, v) :: others
  | (.error why, _) :: _ => .error (.malformed why)

end

/-- Any value; the fields of objects are sorted by name, and of several with one
name the last is kept. -/
def any : Decoder Value where
  decode := keep

/-! ## Records -/

end Decoder

/-- What it means that a field is not there. -/
inductive Absence
  /-- The field keeps its starting value. -/
  | allowed
  /-- In an object the field keeps its starting value; an array has to hold it. -/
  | allowedInObjects
  /-- The field has to be there. -/
  | refused
deriving DecidableEq, Repr

/-- A field of records of type `ρ`: its name, how its value is read and stored,
and whether it may be missing. -/
structure Field (ρ : Type) where
  name : String
  absence : Absence
  read : Source → Tree → Except Problem (ρ → ρ)

/-- The field `name` that is read by `d` and stored by `store`. -/
def Field.of {ρ α : Type} (name : String) (absence : Absence) (d : Decoder α)
    (store : α → ρ → ρ) : Field ρ where
  name := name
  absence := absence
  read source t := (d.decode source t).map store

namespace Decoder

/-- Reads the fields of an object in their order: a known field is stored, and
may come once; an unknown one is passed over. -/
def storeFields {ρ : Type} (fields : List (Field ρ)) (source : Source) :
    List (Except Malformation String × Tree) → List String → ρ →
      Except Problem (List String × ρ)
  | [], seen, r => .ok (seen, r)
  | (.error why, _) :: _, _, _ => .error (.malformed why)
  | (.ok name, t) :: rest, seen, r =>
    match fields.find? (·.name == name) with
    | some field =>
      if seen.contains name then .error (.duplicateField name)
      else do
        let store ← field.read source t
        storeFields fields source rest (name :: seen) (store r)
    | none =>
      match t.break? with
      | none => storeFields fields source rest seen r
      | some why => .error (.malformed why)

/-- The first field that may not be missing and was not seen. -/
def missing? {ρ : Type} (fields : List (Field ρ)) (seen : List String) : Option String :=
  (fields.find? fun f => f.absence == .refused && !seen.contains f.name).map (·.name)

/-- Reads the items of an array into the fields in the order of declaration;
`position` counts them. Where the items end, `missing` says what stands in place
of the closing bracket. -/
def storeItems {ρ : Type} (expected : String) (missing : Option Malformation)
    (source : Source) :
    List (Field ρ) → List Tree → Nat → ρ → Except Problem ρ
  | [], _, _, r => .ok r
  | field :: fields, [], position, r => do
    closing missing ()
    if field.absence == .allowed then
      storeItems expected missing source fields [] (position + 1) r
    else throw (.wrongLength position expected)
  | field :: fields, t :: rest, position, r => do
    let store ← field.read source t
    storeItems expected missing source fields rest (position + 1) (store r)

/-- Checks that an array ends where the fields of its record do: `extra` are the
items that are left. -/
def endItems (source : Source) (length : Nat) (extra : List Tree)
    (missing : Option Malformation) : Except Problem Unit :=
  match source, extra, missing with
  | _, [], none => .ok ()
  | _, [], some .listEnds => .error (.malformed .listEnds)
  | .text _, [.broken .trailingComma], _ => .error (.malformed .trailingComma)
  | .text _, _, _ => .error (.malformed .trailingCharacters)
  | .value, _, _ => .error (.wrongLength length "fewer elements in array")

/-- How a message names a record that an array was to be read into. -/
def elementsText (name : String) (count : Nat) : String :=
  "struct " ++ name ++ " with " ++ integerText count
    ++ (if count = 1 then " element" else " elements")

/-- A record, from an object or from an array of its fields. -/
def record {ρ : Type} (name : String) (fields : List (Field ρ)) (start : ρ) : Decoder ρ where
  decode source
    | .object entries missing => do
      let (seen, r) ← storeFields fields (← source.enter) entries [] start
      closing missing ()
      match missing? fields seen with
      | some field => throw (.missingField field)
      | none => return r
    | .array ts missing => do
      let inner ← source.enter
      let r ← storeItems (elementsText name fields.length) missing inner fields ts 0 start
      endItems source ts.length (ts.drop fields.length) missing
      return r
    | t => .error (t.isNot ("struct " ++ name))

end Decoder

/-! ## The two sources -/

mutual

/-- A value as a tree without breaks. -/
def Value.toTree : Value → Tree
  | .null => .null
  | .bool b => .bool b
  | .number n => .number (.ok n)
  | .string s => .string (.ok s)
  | .array items => .array (toTrees items) none
  | .object fields => .object (toFields fields) none

/-- The items as trees. -/
def toTrees : List Value → List Tree
  | [] => []
  | v :: rest => v.toTree :: toTrees rest

/-- The fields as trees. -/
def toFields : List (String × Value) → List (Except Malformation String × Tree)
  | [] => []
  | (name, v) :: rest => (.ok name, v.toTree) :: toFields rest

end

/-- Decodes a text, after whose value nothing may follow. -/
def ofText {α : Type} (d : Decoder α) (text : String) : Except Problem α := do
  let (tree, complete) := readTree text
  let a ← d.decode (.text maxDepth) tree
  if complete then return a else throw (.malformed .trailingCharacters)

/-- Decodes a value. -/
def ofValue {α : Type} (d : Decoder α) (v : Value) : Except Problem α :=
  d.decode .value v.toTree

end Thesaurus.Json
