import Thesaurus.Json.Token

/-!
# Reading trees

A JSON text as a tree that may break off: the outline of all that could be read
and, at the place where the text stops being JSON, the reason. A decoder walks
such a tree from left to right, so it reports whichever comes first, a value of
the wrong kind or the place where the text breaks.

The tree is built by one pass over the tokens with an explicit stack of the
arrays and objects that are open; texts may therefore nest as deeply as they
like.
-/

namespace Thesaurus.Json

/-- A JSON text as far as it could be read. -/
inductive Tree
  | null
  | bool (value : Bool)
  /-- A number, or why it denotes none. -/
  | number (value : Except Malformation Number)
  /-- A text, or why it denotes none. -/
  | string (value : Except Malformation String)
  /-- The items, and what stands in place of the closing bracket. -/
  | array (items : List Tree) (missing : Option Malformation)
  /-- The fields, and what stands in place of the closing brace. -/
  | object (fields : List (Except Malformation String × Tree)) (missing : Option Malformation)
  /-- Something that is no value. -/
  | broken (why : Malformation)
deriving Inhabited

/-! ## Passing over -/

/-- The reason under which a break shows in a part that nobody reads: there a
numeral has to be complete, surrogates need not come in pairs, and after a comma
anything else is met as the value or name that it is not. -/
def Malformation.passedOver : Malformation → Malformation
  | .numeralEnds => .numeral
  | .surrogate _ (some why) => .quotation why
  | .trailingComma => .value
  | why => why

/-- The same for what stands in place of a closing brace. -/
def Malformation.bracePassedOver : Malformation → Malformation
  | .trailingComma => .key
  | .valueEnds => .objectEnds
  | why => why.passedOver

mutual

/-- The first place where a text that nobody reads stops being JSON. Its numbers
and texts need not denote anything. -/
def Tree.break? : Tree → Option Malformation
  | .array items missing => (itemsBreak? items).or missing
  | .object fields missing => (fieldsBreak? fields).or (missing.map (·.bracePassedOver))
  | .broken why => some why.passedOver
  | _ => none

/-- The first break in the items. -/
def itemsBreak? : List Tree → Option Malformation
  | [] => none
  | t :: rest => t.break?.or (itemsBreak? rest)

/-- The first break in the values of the fields. -/
def fieldsBreak? : List (Except Malformation String × Tree) → Option Malformation
  | [] => none
  | (_, t) :: rest => t.break?.or (fieldsBreak? rest)

end

/-! ## Building -/

/-- An array or object that is still open, its complete parts last first. -/
inductive Frame
  | array (items : List Tree)
  /-- An object, with the name of the field whose value is being read. -/
  | object (fields : List (Except Malformation String × Tree)) (name : Except Malformation String)

/-- The frame as a tree, the last part being `last`. -/
def Frame.around (frame : Frame) (last : Tree) (missing : Option Malformation) : Tree :=
  match frame with
  | .array items => .array (last :: items).reverse missing
  | .object fields name => .object ((name, last) :: fields).reverse missing

/-- The tree of a text that breaks off with `last` inside the open frames. -/
def breakOff (why : Malformation) (last : Tree) (frames : List Frame) : Tree :=
  frames.foldl (fun inner frame => frame.around inner (some why)) last

/-- The state of the builder: what may come next, inside which open frames. -/
inductive Building
  /-- A value. -/
  | value (frames : List Frame)
  /-- The first item of a new array, or its closing bracket. -/
  | firstItem (outer : List Frame)
  /-- The first field name of a new object, or its closing brace. -/
  | firstField (outer : List Frame)
  /-- A field name, after these fields, the last of them first. -/
  | field (fields : List (Except Malformation String × Tree)) (outer : List Frame)
  /-- The colon after a field name. -/
  | colon (fields : List (Except Malformation String × Tree)) (name : Except Malformation String)
      (outer : List Frame)
  /-- Whatever may follow a complete value. -/
  | complete (value : Tree) (frames : List Frame)

namespace Building

/-- The state after the first token of a value. -/
def begin? (token : Token) (frames : List Frame) : Option Building :=
  match token with
  | .null => some (.complete .null frames)
  | .bool b => some (.complete (.bool b) frames)
  | .number n => some (.complete (.number n) frames)
  | .string s => some (.complete (.string s) frames)
  | .leftBracket => some (.firstItem frames)
  | .leftBrace => some (.firstField frames)
  | _ => none

/-- The state after one more token, none if the token has no place here. -/
def step? (state : Building) (token : Token) : Option Building :=
  match state, token with
  | .value frames, token => begin? token frames
  | .firstItem outer, .rightBracket => some (.complete (.array [] none) outer)
  | .firstItem outer, token => begin? token (.array [] :: outer)
  | .firstField outer, .string name => some (.colon [] name outer)
  | .firstField outer, .rightBrace => some (.complete (.object [] none) outer)
  | .field fields outer, .string name => some (.colon fields name outer)
  | .colon fields name outer, .colon => some (.value (.object fields name :: outer))
  | .complete tree (.array items :: outer), .comma =>
    some (.value (.array (tree :: items) :: outer))
  | .complete tree (.array items :: outer), .rightBracket =>
    some (.complete ((Frame.array items).around tree none) outer)
  | .complete tree (.object fields name :: outer), .comma =>
    some (.field ((name, tree) :: fields) outer)
  | .complete tree (.object fields name :: outer), .rightBrace =>
    some (.complete ((Frame.object fields name).around tree none) outer)
  | _, _ => none

/-- Why a token is no value. -/
def noValue : Token → Malformation
  | .broken why => why
  | _ => .value

/-- Why a token is no field name: a text that breaks, or no text at all. -/
def noName : Token → Malformation
  | .broken (.quotation why) => .quotation why
  | .broken (.surrogate flaw later) => .surrogate flaw later
  | _ => .key

/-- The tree of a text that breaks off in this state, before a token that has no
place here or at its end. -/
def stop (state : Building) (token : Option Token) : Tree :=
  match state, token with
  | .value frames, none => breakOff .valueEnds (.broken .valueEnds) frames
  | .value (.array items :: outer), some .rightBracket =>
    breakOff .trailingComma (.broken .trailingComma) (.array items :: outer)
  | .value frames, some token => breakOff (noValue token) (.broken (noValue token)) frames
  | .firstItem outer, none => breakOff .listEnds (.array [] (some .listEnds)) outer
  | .firstItem outer, some token =>
    breakOff (noValue token) (.broken (noValue token)) (.array [] :: outer)
  | .firstField outer, none => breakOff .objectEnds (.object [] (some .objectEnds)) outer
  | .firstField outer, some token =>
    breakOff (noName token) (.object [] (some (noName token))) outer
  | .field fields outer, none =>
    breakOff .valueEnds (.object fields.reverse (some .valueEnds)) outer
  | .field fields outer, some .rightBrace =>
    breakOff .trailingComma (.object fields.reverse (some .trailingComma)) outer
  | .field fields outer, some token =>
    breakOff (noName token) (.object fields.reverse (some (noName token))) outer
  | .colon fields name outer, token =>
    let why := if token.isNone then Malformation.objectEnds else .colon
    breakOff why (.broken why) (.object fields name :: outer)
  | .complete tree [], _ => tree
  | .complete tree (.array items :: outer), token =>
    let why := if token.isNone then Malformation.listEnds else .listSeparator
    breakOff why ((Frame.array items).around tree (some why)) outer
  | .complete tree (.object fields name :: outer), token =>
    let why := if token.isNone then Malformation.objectEnds else .objectSeparator
    breakOff why ((Frame.object fields name).around tree (some why)) outer

/-- Builds the tree of the tokens, and says whether the first value was all there
was. -/
def run (state : Building) : List Token → Tree × Bool
  | [] => (state.stop none, true)
  | token :: rest =>
    match state.step? token with
    | some next => next.run rest
    | none => (state.stop (some token), false)

end Building

/-- The tree of a text, and whether nothing follows its first value. -/
def readTree (text : String) : Tree × Bool :=
  (Building.value []).run (tokens text)

end Thesaurus.Json
