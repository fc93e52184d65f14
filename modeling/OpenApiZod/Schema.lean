import OpenApiZod.Json.Value

/-!
# Schemas

The keywords of JSON Schema that decide a validator, in their 3.0 and their 3.1 spellings. A
schema is a reference or a set of keywords; all other keywords are ignored.
-/

namespace OpenApiZod

/-- A name that the keyword `type` gives. -/
inductive TypeName
  | string
  | number
  | integer
  | boolean
  | array
  | object
  | null
  | other
deriving DecidableEq, Repr, Inhabited

/-- The type that a token names; a token that names none is `other`. -/
def TypeName.ofToken : String → TypeName
  | "string" => .string
  | "number" => .number
  | "integer" => .integer
  | "boolean" => .boolean
  | "array" => .array
  | "object" => .object
  | "null" => .null
  | _ => .other

/-- The types in the order in which they are declared. -/
def TypeName.declared : List TypeName :=
  [.string, .number, .integer, .boolean, .array, .object, .null, .other]

/-- The value of the keyword `type`. -/
inductive TypeSet
  | one (name : TypeName)
  | several (names : List TypeName)
deriving DecidableEq, Repr

/-- The value of `additionalProperties`. -/
inductive Additional (σ : Type)
  | flag (allowed : Bool)
  | schema (values : σ)
deriving Repr

/-- The value of `exclusiveMinimum` or `exclusiveMaximum`: a modifier of the inclusive bound, or a
bound of its own. -/
inductive ExclusiveBound
  | flag (exclusive : Bool)
  | value (bound : Binary64)
deriving DecidableEq, Repr

/-- The keywords of a schema whose parts are `σ`. -/
structure Keywords (σ : Type) where
  type : Option TypeSet
  format : Option String
  description : Option String
  nullable : Option Bool
  properties : List (String × σ)
  required : List String
  additional : Option (Additional σ)
  items : Option σ
  allOf : List σ
  oneOf : List σ
  anyOf : List σ
  enum : List Json
  const : Option Json
  minimum : Option Binary64
  maximum : Option Binary64
  exclusiveMinimum : Option ExclusiveBound
  exclusiveMaximum : Option ExclusiveBound
  minLength : Option Nat
  maxLength : Option Nat
  pattern : Option String
  minItems : Option Nat
  maxItems : Option Nat
deriving Repr

/-- No keywords at all. -/
def Keywords.blank {σ : Type} : Keywords σ where
  type := none
  format := none
  description := none
  nullable := none
  properties := []
  required := []
  additional := none
  items := none
  allOf := []
  oneOf := []
  anyOf := []
  enum := []
  const := none
  minimum := none
  maximum := none
  exclusiveMinimum := none
  exclusiveMaximum := none
  minLength := none
  maxLength := none
  pattern := none
  minItems := none
  maxItems := none

/-- The keyword `type` alone, with one name. -/
def Keywords.ofType {σ : Type} (name : TypeName) : Keywords σ :=
  { blank with type := some (.one name) }

/-- A reference to a named schema, or keywords. -/
inductive Schema
  | reference (target : String)
  | inline (keywords : Keywords Schema)

end OpenApiZod
