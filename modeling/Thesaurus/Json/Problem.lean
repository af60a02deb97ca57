import Thesaurus.Json.Value
import Thesaurus.Text.Characters

/-!
# What a JSON document gets wrong

The reasons for which a document is refused, and the sentence for each of them.
A document whose text is not JSON is `malformed`, and there are several ways in which
a text fails to be JSON; all other problems are about a value that was read and does
not fit.

## Main definitions

* `Malformation`: why a text is not JSON.
* `Problem`: why a document is refused.
-/

namespace Thesaurus.Json

/-! ## Malformed texts -/

/-- What breaks a quotation off before its closing quote. -/
inductive QuotationBreak
  /-- The text ends. -/
  | ends
  | control
  | escape
deriving DecidableEq, Repr, Inhabited

/-- How the half of a surrogate pair can stand in a quotation without the other. -/
inductive SurrogateFlaw
  /-- A second half without the first, or a first half before an escape that is no
  second. -/
  | lone
  /-- A first half before anything but an escape. -/
  | unpaired
deriving DecidableEq, Repr, Inhabited

/-- Why a text is not JSON. -/
inductive Malformation
  /-- The text ends where a value has to stand. -/
  | valueEnds
  /-- The text ends inside one of the three words. -/
  | wordEnds
  /-- The text ends inside a numeral. -/
  | numeralEnds
  | listEnds
  | objectEnds
  /-- Something stands where a value has to. -/
  | value
  /-- A word begins like one of the three and goes on differently. -/
  | word
  | numeral
  /-- A number too large to keep. -/
  | outOfRange
  /-- A quotation breaks off. -/
  | quotation (why : QuotationBreak)
  /-- A quotation has a flaw and, perhaps, breaks off behind it. -/
  | surrogate (flaw : SurrogateFlaw) (later : Option QuotationBreak)
  /-- Something stands where a field name has to. -/
  | key
  | colon
  | listSeparator
  | objectSeparator
  | trailingComma
  | trailingCharacters
  | tooDeep
deriving DecidableEq, Repr, Inhabited

/-- The sentence for a quotation that breaks off. -/
def QuotationBreak.message : QuotationBreak → String
  | .ends => "EOF while parsing a string"
  | .control => "control character (\\u0000-\\u001F) found while parsing a string"
  | .escape => "invalid escape"

/-- The sentence for a surrogate that is not one of a pair. -/
def SurrogateFlaw.message : SurrogateFlaw → String
  | .lone => "lone leading surrogate in hex escape"
  | .unpaired => "unexpected end of hex escape"

/-- The sentence for a malformed text. -/
def Malformation.message : Malformation → String
  | .valueEnds | .wordEnds | .numeralEnds => "EOF while parsing a value"
  | .listEnds => "EOF while parsing a list"
  | .objectEnds => "EOF while parsing an object"
  | .value => "expected value"
  | .word => "expected ident"
  | .numeral => "invalid number"
  | .outOfRange => "number out of range"
  | .quotation why => why.message
  | .surrogate flaw _ => flaw.message
  | .key => "key must be a string"
  | .colon => "expected `:`"
  | .listSeparator => "expected `,` or `]`"
  | .objectSeparator => "expected `,` or `\x7d`"
  | .trailingComma => "trailing comma"
  | .trailingCharacters => "trailing characters"
  | .tooDeep => "recursion limit exceeded"

/-! ## Values that do not fit -/

/-- A value of the wrong kind, as a message names it. -/
inductive Found
  | null
  | bool (value : Bool)
  | number (value : Number)
  | string (value : String)
  | sequence
  | map
deriving DecidableEq, Repr

/-- How a message names a value. -/
def Found.text : Found → String
  | .null => "null"
  | .bool true => "boolean `true`"
  | .bool false => "boolean `false`"
  | .number (.integer i) => "integer `" ++ integerText i ++ "`"
  | .number (.binary x) => "floating point `" ++ binaryText x ++ "`"
  | .string s => "string " ++ Text.quoted s
  | .sequence => "sequence"
  | .map => "map"

/-- Why a document is refused. -/
inductive Problem
  /-- The text is not JSON, or nests too deeply. -/
  | malformed (why : Malformation)
  | missingField (name : String)
  | duplicateField (name : String)
  | wrongType (found : Found) (expected : String)
  | wrongValue (found : Found) (expected : String)
  | unknownVariant (name : String) (known : List String)
  | wrongLength (length : Nat) (expected : String)
deriving DecidableEq, Repr

/-- Names in backquotes, with commas between. -/
def backquoted (names : List String) : String :=
  ", ".intercalate (names.map fun n => "`" ++ n ++ "`")

/-- The sentence for a problem. -/
def Problem.message : Problem → String
  | .malformed why => why.message
  | .missingField name => "missing field `" ++ name ++ "`"
  | .duplicateField name => "duplicate field `" ++ name ++ "`"
  | .wrongType found expected => "invalid type: " ++ found.text ++ ", expected " ++ expected
  | .wrongValue found expected => "invalid value: " ++ found.text ++ ", expected " ++ expected
  | .unknownVariant name known =>
    "unknown variant `" ++ name ++ "`, expected one of " ++ backquoted known
  | .wrongLength length expected =>
    "invalid length " ++ integerText length ++ ", expected " ++ expected

end Thesaurus.Json
