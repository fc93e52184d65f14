import OpenApiZod.Reference
import OpenApiZod.Schema
import OpenApiZod.Table

/-!
# Shapes

A shape is what a schema means once the precedence of its keywords is settled: one kind of value
with the rules for it. `Shape.ofSchema` settles it. Compositions come before `const`, `const`
before `type`, and without any of them the other keywords decide.
-/

namespace OpenApiZod

/-- The rules for a text. -/
structure StringRules where
  format : Option String
  pattern : Option String
  minLength : Option Nat
  maxLength : Option Nat
  enum : List Json
deriving Repr

/-- The rules for a number. -/
structure NumberRules where
  integer : Bool
  minimum : Option Binary64
  maximum : Option Binary64
  exclusiveMinimum : Option Binary64
  exclusiveMaximum : Option Binary64
  enum : List Json
deriving Repr

/-- How the members of a composition combine. -/
inductive Composition
  | allOf
  | oneOf
  | anyOf
deriving DecidableEq, Repr

/-- What an object does with properties it does not list. -/
inductive Extra (σ : Type)
  | unspecified
  | forbidden
  | unrestricted
  | typed (values : σ)
deriving Repr

/-- The single effective meaning of a schema. -/
inductive Shape
  | reference (target : String)
  | composition (kind : Composition) (members : List Shape)
  | string (rules : StringRules)
  | number (rules : NumberRules)
  | boolean
  | null
  | literal (values : List Json)
  | array (items : Option Shape) (minItems maxItems : Option Nat)
  | object (properties : List (String × Shape)) (required : List String) (extra : Extra Shape)
  | nullable (inner : Shape)
  | unknown
deriving Repr, Inhabited

namespace Shape

/-- The inclusive and the exclusive bound that a bound and its modifier give: the modifier `true`
makes the bound an exclusive one, and a number is an exclusive bound of its own. -/
def splitBound (inclusive : Option Binary64) :
    Option ExclusiveBound → Option Binary64 × Option Binary64
  | some (.value bound) => (inclusive, some bound)
  | some (.flag true) => (none, inclusive)
  | some (.flag false) => (inclusive, none)
  | none => (inclusive, none)

/-- What additional properties mean. -/
def extraOf : Option (Additional Shape) → Extra Shape
  | none => .unspecified
  | some (.flag false) => .forbidden
  | some (.flag true) => .unrestricted
  | some (.schema values) => .typed values

/-- The number that the keywords describe. -/
def ofNumber (k : Keywords Shape) (integer : Bool) : Shape :=
  let low := splitBound k.minimum k.exclusiveMinimum
  let high := splitBound k.maximum k.exclusiveMaximum
  .number ⟨integer, low.1, high.1, low.2, high.2, k.enum⟩

/-- The object that the keywords describe. -/
def ofObject (k : Keywords Shape) : Shape :=
  .object k.properties k.required (extraOf k.additional)

/-- The array that the keywords describe. -/
def ofArray (k : Keywords Shape) : Shape :=
  .array k.items k.minItems k.maxItems

/-- The shape of one type under the keywords. -/
def ofType (k : Keywords Shape) : TypeName → Shape
  | .string => .string ⟨k.format, k.pattern, k.minLength, k.maxLength, k.enum⟩
  | .number => ofNumber k false
  | .integer => ofNumber k true
  | .boolean => .boolean
  | .null => .null
  | .array => ofArray k
  | .object => ofObject k
  | .other => .unknown

/-- The shape of a list of types: `null` in it makes the others nullable. -/
def ofTypes (k : Keywords Shape) (types : List TypeName) : Shape :=
  let hasNull := decide (.null ∈ types)
  match types.filter (· ≠ .null), hasNull with
  | [], true => .null
  | [], false => .unknown
  | [one], true => .nullable (ofType k one)
  | [one], false => ofType k one
  | many, true => .nullable (.composition .anyOf (many.map (ofType k)))
  | many, false => .composition .anyOf (many.map (ofType k))

/-- The shape that keywords without a type suggest. -/
def inferred (k : Keywords Shape) : Shape :=
  if !k.properties.isEmpty || k.additional.isSome then ofObject k
  else if k.items.isSome then ofArray k
  else if !k.enum.isEmpty then .literal k.enum
  else .unknown

/-- The shape of keywords, nullability apart. Properties beside `allOf` are one more member. -/
def base (k : Keywords Shape) : Shape :=
  if !k.allOf.isEmpty then
    .composition .allOf (k.allOf ++ if k.properties.isEmpty then [] else [ofObject k])
  else if !k.oneOf.isEmpty then .composition .oneOf k.oneOf
  else if !k.anyOf.isEmpty then .composition .anyOf k.anyOf
  else match k.const with
    | some value => .literal [value]
    | none =>
      match k.type with
      | some (.one name) => ofType k name
      | some (.several names) => ofTypes k names
      | none => inferred k

/-- The shape of keywords whose parts have shapes. -/
def ofKeywords (k : Keywords Shape) : Shape :=
  match base k with
  | .null => .null
  | .nullable inner => .nullable inner
  | .unknown => .unknown
  | shape => if k.nullable = some true then .nullable shape else shape

mutual

/-- The shape of a schema. -/
def ofSchema : Schema → Shape
  | .reference target => .reference (Reference.lastSegment target)
  | .inline k => ofKeywords
      { k with
        properties := ofProperties k.properties
        additional := ofAdditional k.additional
        items := ofOption k.items
        allOf := ofSchemas k.allOf
        oneOf := ofSchemas k.oneOf
        anyOf := ofSchemas k.anyOf }

/-- The shapes of properties. -/
def ofProperties : List (String × Schema) → List (String × Shape)
  | [] => []
  | (name, s) :: rest => (name, ofSchema s) :: ofProperties rest

/-- The shape of additional properties. -/
def ofAdditional : Option (Additional Schema) → Option (Additional Shape)
  | none => none
  | some (.flag allowed) => some (.flag allowed)
  | some (.schema values) => some (.schema (ofSchema values))

/-- The shape of items. -/
def ofOption : Option Schema → Option Shape
  | none => none
  | some s => some (ofSchema s)

/-- The shapes of members. -/
def ofSchemas : List Schema → List Shape
  | [] => []
  | s :: rest => ofSchema s :: ofSchemas rest

end

/-! ### References -/

mutual

/-- The targets of the references in a shape, in order and with repetitions; references are not
followed. -/
def references : Shape → List String
  | .reference target => [target]
  | .composition _ members => referencesOfMembers members
  | .array none _ _ => []
  | .array (some items) _ _ => references items
  | .object properties _ extra =>
    referencesOfProperties properties ++
      match extra with
      | .typed values => references values
      | _ => []
  | .nullable inner => references inner
  | _ => []

/-- The targets of the references in members. -/
def referencesOfMembers : List Shape → List String
  | [] => []
  | s :: rest => references s ++ referencesOfMembers rest

/-- The targets of the references in properties. -/
def referencesOfProperties : List (String × Shape) → List String
  | [] => []
  | (_, s) :: rest => references s ++ referencesOfProperties rest

end

/-! ### Labels -/

/-- A short description for the list of an object's properties. -/
def label : Shape → String
  | .reference target => target
  | .composition .allOf _ => "intersection"
  | .composition _ _ => "union"
  | .string rules => if rules.enum.isEmpty then "string" else "enum"
  | .number rules => if rules.integer then "integer" else "number"
  | .boolean => "boolean"
  | .null => "null"
  | .literal _ => "literal"
  | .array none _ _ => "array"
  | .array (some items) _ _ => "array of " ++ items.label
  | .object _ _ _ => "object"
  | .nullable inner => inner.label ++ " | null"
  | .unknown => "unknown"

end Shape

end OpenApiZod
