/-!
# The registry of relation types

A relation type names a kind of link between terms and says what a link of that
kind implies. A symmetric type implies the same link backwards; a type with an
inverse implies a link of the inverse type backwards; any other type implies
nothing.

A registry is a list of relation types that was accepted as a whole: names are
well formed and distinct, colours are well formed, inverses come in pairs, and
the default type is one of the list. It is never changed; new settings make a
new registry, which must not drop a type that is still in use.

The type carries the fact that the checks found nothing, so that whoever holds a
registry may rely on all of them.

## Main definitions

* `firstFlaw?`: the first thing wrong with a list of types, in the order in which
  problems are reported.
* `Registry.ofTypes`: acceptance.
* `Registry.implied?`: the type of the implied link backwards.
* `Registry.replace`: acceptance of a successor.
-/

namespace Thesaurus

/-! ## Relation types -/

/-- How a relation type organises terms. -/
inductive Category
  /-- Levels, such as broader or part of. -/
  | hierarchical
  /-- A loose link between peers. -/
  | associative
  /-- The same, or the opposite, meaning. -/
  | equivalence
deriving DecidableEq, Repr, Inhabited

/-- The name of a category. -/
def Category.name : Category → String
  | .hierarchical => "hierarchical"
  | .associative => "associative"
  | .equivalence => "equivalence"

/-- A named kind of relation. -/
structure RelationType where
  name : String
  displayName : String
  description : Option String := none
  category : Category := .associative
  isSymmetric : Bool := false
  isTransitive : Bool := false
  /-- The type of the implied link backwards, for types that are not symmetric. -/
  inverse : Option String := none
  /-- Whether a link may lead from one glossary to another. -/
  crossesGlossaries : Bool := true
  /-- Whether every project starts with this type. -/
  isBuiltin : Bool := false
  /-- The colour in which links are drawn, as `#rrggbb`. -/
  color : String
  /-- The predicate in semantic exports, an IRI or a short form of one. -/
  predicate : Option String := none
deriving DecidableEq, Repr, Inhabited

namespace RelationType

/-- The type of the link that a link of this type implies backwards. -/
def implied? (t : RelationType) : Option String :=
  if t.isSymmetric then some t.name else t.inverse

/-- The ten types that every project starts with. -/
def builtins : List RelationType := [
  { name := "relatedTo", displayName := "Related To", color := "#1570ef"
    description := some "General association between two terms"
    isSymmetric := true, predicate := some "skos:related", isBuiltin := true },
  { name := "synonym", displayName := "Synonym", color := "#b42318"
    description := some "Terms with the same meaning", category := .equivalence
    isSymmetric := true, predicate := some "skos:exactMatch", isBuiltin := true },
  { name := "antonym", displayName := "Antonym", color := "#f79009"
    description := some "Terms with opposite meanings", category := .equivalence
    isSymmetric := true, isBuiltin := true },
  { name := "broader", displayName := "Broader", color := "#067647"
    description := some "The target is a more general concept", category := .hierarchical
    isTransitive := true, inverse := some "narrower", crossesGlossaries := false
    predicate := some "skos:broader", isBuiltin := true },
  { name := "narrower", displayName := "Narrower", color := "#079455"
    description := some "The target is a more specific concept", category := .hierarchical
    isTransitive := true, inverse := some "broader", crossesGlossaries := false
    predicate := some "skos:narrower", isBuiltin := true },
  { name := "partOf", displayName := "Part Of", color := "#6938ef"
    description := some "The source is a component of the target", category := .hierarchical
    isTransitive := true, inverse := some "hasPart", crossesGlossaries := false
    isBuiltin := true },
  { name := "hasPart", displayName := "Has Part", color := "#7a5af8"
    description := some "The target is a component of the source", category := .hierarchical
    isTransitive := true, inverse := some "partOf", crossesGlossaries := false
    isBuiltin := true },
  { name := "calculatedFrom", displayName := "Calculated From", color := "#dd2590"
    description := some "The source metric is derived from the target"
    inverse := some "usedToCalculate", isBuiltin := true },
  { name := "usedToCalculate", displayName := "Used To Calculate", color := "#ee46bc"
    description := some "The source is an input to the target metric"
    inverse := some "calculatedFrom", isBuiltin := true },
  { name := "seeAlso", displayName := "See Also", color := "#667085"
    description := some "The target is worth reading alongside the source"
    predicate := some "rdfs:seeAlso", isBuiltin := true }]

/-- The type that is used where none is named. -/
def defaultName : String := "relatedTo"

end RelationType

/-! ## Registries -/

/-- Why a list of relation types is not accepted, or a type not found. -/
inductive RegistryError
  | unknownType (name : String)
  | invalidName (name : String)
  | duplicateName (name : String)
  | inverseMismatch (name inverse : String)
  | symmetricWithInverse (name : String)
  | invalidColor (name color : String)
  | unknownDefault (name : String)
  | inUse (name : String) (count : Nat)
deriving DecidableEq, Repr

/-- The sentence for an error. -/
def RegistryError.message : RegistryError → String
  | .unknownType name => "Unknown relation type: " ++ name
  | .invalidName name =>
    "Invalid relation type name '" ++ name
      ++ "': must start with a letter and contain only letters and digits"
  | .duplicateName name => "Duplicate relation type: " ++ name
  | .inverseMismatch name inverse =>
    "Relation type '" ++ name ++ "' declares inverse '" ++ inverse
      ++ "' which does not point back"
  | .symmetricWithInverse name =>
    "Symmetric relation type '" ++ name ++ "' cannot declare an inverse"
  | .invalidColor name color =>
    "Relation type '" ++ name ++ "' has invalid color '" ++ color ++ "', expected #rrggbb"
  | .unknownDefault name => "Default relation type '" ++ name ++ "' is not registered"
  | .inUse name count =>
    "Relation type '" ++ name ++ "' is used by " ++ .ofList (Nat.toDigits 10 count)
      ++ " relation(s) and cannot be removed"

/-- Names are ASCII letters and digits, a letter first. -/
def isTypeName (name : String) : Bool :=
  match name.toList with
  | [] => false
  | first :: rest => first.isAlpha && rest.all Char.isAlphanum

/-- Whether a character is a hexadecimal digit. -/
def isHexDigit (c : Char) : Bool :=
  c.isDigit || ('a' ≤ c && c ≤ 'f') || ('A' ≤ c && c ≤ 'F')

/-- Colours are `#` and six hexadecimal digits. -/
def isColor (color : String) : Bool :=
  match color.toList with
  | '#' :: digits => digits.length == 6 && digits.all isHexDigit
  | _ => false

/-! ## Acceptance -/

/-- The first type of the list with this name. -/
def findType? (types : List RelationType) (name : String) : Option RelationType :=
  types.find? (·.name == name)

/-- The first flaw of a type by itself or against the names before it. -/
def ownFlaw? (seen : List String) (t : RelationType) : Option RegistryError :=
  if !isTypeName t.name then some (.invalidName t.name)
  else if !isColor t.color then some (.invalidColor t.name t.color)
  else if seen.contains t.name then some (.duplicateName t.name)
  else none

/-- The first flaw of the types by themselves, in the order of the list. -/
def ownFlaws? : List String → List RelationType → Option RegistryError
  | _, [] => none
  | seen, t :: rest =>
    match ownFlaw? seen t with
    | some flaw => some flaw
    | none => ownFlaws? (t.name :: seen) rest

/-- What is wrong with the inverse that a type declares. -/
def inverseFlaw? (types : List RelationType) (t : RelationType) : Option RegistryError :=
  match t.inverse with
  | none => none
  | some inverse =>
    if t.isSymmetric then some (.symmetricWithInverse t.name)
    else if (findType? types inverse).any (·.inverse == some t.name) then none
    else some (.inverseMismatch t.name inverse)

/-- The first thing wrong with a list of types and the name of its default. -/
def firstFlaw? (types : List RelationType) (defaultName : String) : Option RegistryError :=
  (ownFlaws? [] types).or <| (types.findSome? (inverseFlaw? types)).or <|
    if (findType? types defaultName).isSome then none else some (.unknownDefault defaultName)

/-- Relation types that were accepted together. -/
structure Registry where
  types : List RelationType
  defaultName : String
  accepted : firstFlaw? types defaultName = none

namespace Registry

/-- Accepts a list of types, or reports the first thing wrong with it. -/
def ofTypes (types : List RelationType) (defaultName : String) :
    Except RegistryError Registry :=
  match h : firstFlaw? types defaultName with
  | some flaw => .error flaw
  | none => .ok ⟨types, defaultName, h⟩

/-- The registry that every project starts with. -/
def builtin : Registry where
  types := RelationType.builtins
  defaultName := RelationType.defaultName
  accepted := by decide +kernel

instance : Inhabited Registry := ⟨builtin⟩

/-- The type of a name. -/
def get? (r : Registry) (name : String) : Option RelationType := findType? r.types name

/-- Whether a name is registered. -/
def contains (r : Registry) (name : String) : Bool := (r.get? name).isSome

/-- The type of a name, or the error that there is none. -/
def resolve (r : Registry) (name : String) : Except RegistryError RelationType :=
  match r.get? name with
  | some t => .ok t
  | none => .error (.unknownType name)

/-- The type of the link that a link of the named type implies backwards. -/
def implied? (r : Registry) (name : String) : Option String :=
  (r.get? name).bind RelationType.implied?

/-- The names in the order of registration. -/
def names (r : Registry) : List String := r.types.map (·.name)

/-- The first registered type that the list leaves out although links of it are
counted. -/
def droppedInUse? (r : Registry) (types : List RelationType) (usage : String → Nat) :
    Option RegistryError :=
  (r.types.find? fun t => (findType? types t.name).isNone && usage t.name != 0).map
    fun t => .inUse t.name (usage t.name)

/-- Accepts a list of types in place of this registry: no type that is in use may
be left out. -/
def replace (r : Registry) (types : List RelationType) (defaultName : String)
    (usage : String → Nat) : Except RegistryError Registry :=
  match r.droppedInUse? types usage with
  | some error => .error error
  | none => ofTypes types defaultName

end Registry

end Thesaurus
