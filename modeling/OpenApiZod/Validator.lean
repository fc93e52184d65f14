import OpenApiZod.Shape

/-!
# Validators

A validator is an expression that accepts the values of a shape. It refers to other shapes by
their names; which binding a name has is decided by the module that the expression stands in.

`Validator.ofShape` gives the validator of a shape. It leaves to its argument what becomes of a
reference: the binding of the other shape, that binding behind a function, or the other shape's
own validator in its place.
-/

namespace OpenApiZod

/-- A rule for a text. -/
inductive StringCheck
  | datetime
  | date
  | email
  | uuid
  | url
  | regex (pattern : String)
  | min (length : Nat)
  | max (length : Nat)
deriving DecidableEq, Repr

/-- A rule for a number. -/
inductive NumberCheck
  | int
  | min (bound : Binary64)
  | max (bound : Binary64)
  | gt (bound : Binary64)
  | lt (bound : Binary64)
deriving DecidableEq, Repr

/-- An expression that accepts values. -/
inductive Validator
  | reference (target : String)
  | deferred (target : String)
  | any
  | boolean
  | null
  | literal (value : Json)
  | enum (values : List String)
  | string (checks : List StringCheck)
  | number (checks : List NumberCheck)
  | union (members : List Validator)
  | intersection (left right : Validator)
  | array (items : Validator) (minItems maxItems : Option Nat)
  | record (values : Option Validator)
  | object (fields : List (String × Validator)) (extra : Extra Validator)
  | optional (inner : Validator)
  | nullable (inner : Validator)
deriving Repr, Inhabited

namespace Validator

/-! ### Validators of shapes -/

/-- The union of validators; one alone needs none, and of none everything is accepted. -/
def unionOf : List Validator → Validator
  | [] => .any
  | [v] => v
  | vs => .union vs

/-- The validator of all members at once. -/
def intersectionOf : List Validator → Validator
  | [] => .any
  | v :: vs => vs.foldl .intersection v

/-- The validator of one value. Arrays and objects are not compared. -/
def ofLiteral : Json → Validator
  | .null => .null
  | .arr _ => .any
  | .obj _ => .any
  | scalar => .literal scalar

/-- The validator of one of several values. -/
def ofLiterals (values : List Json) : Validator :=
  unionOf (values.map ofLiteral)

/-- The text that a JSON value is, if it is one. -/
def textOf? : Json → Option String
  | .str s => some s
  | _ => none

/-- The validator of one of several values where texts are expected. -/
def ofEnum (values : List Json) : Validator :=
  match values.mapM textOf? with
  | some texts => .enum texts
  | none => ofLiterals values

/-- The check for a format that has one. -/
def formatCheck? : String → Option StringCheck
  | "date-time" => some .datetime
  | "date" => some .date
  | "email" => some .email
  | "uuid" => some .uuid
  | "uri" => some .url
  | "url" => some .url
  | _ => none

/-- The validator of a text. -/
def ofString (rules : StringRules) : Validator :=
  if rules.enum.isEmpty then
    .string ((rules.format.bind formatCheck?).toList ++
      (rules.pattern.map .regex).toList ++
      (rules.minLength.map .min).toList ++
      (rules.maxLength.map .max).toList)
  else ofEnum rules.enum

/-- The validator of a number. -/
def ofNumber (rules : NumberRules) : Validator :=
  if rules.enum.isEmpty then
    .number ((if rules.integer then [.int] else []) ++
      (rules.minimum.map .min).toList ++
      (rules.maximum.map .max).toList ++
      (rules.exclusiveMinimum.map .gt).toList ++
      (rules.exclusiveMaximum.map .lt).toList)
  else ofLiterals rules.enum

/-- The validator of a property: optional unless its name is a required one. -/
def ofProperty (required : List String) (name : String) (v : Validator) : Validator :=
  if name ∈ required then v else .optional v

mutual

/-- The validator of a shape, given the validators of references. -/
def ofShape (onReference : String → Validator) : Shape → Validator
  | .reference target => onReference target
  | .composition .allOf members => intersectionOf (ofMembers onReference members)
  | .composition _ members => unionOf (ofMembers onReference members)
  | .string rules => ofString rules
  | .number rules => ofNumber rules
  | .boolean => .boolean
  | .null => .null
  | .literal values => ofLiterals values
  | .array items minItems maxItems => .array (ofItems onReference items) minItems maxItems
  | .object [] _ extra =>
    match ofExtra onReference extra with
    | .typed values => .record (some values)
    | _ => .record none
  | .object (property :: properties) required extra =>
    .object (ofProperties onReference required (property :: properties))
      (ofExtra onReference extra)
  | .nullable inner => .nullable (ofShape onReference inner)
  | .unknown => .any

/-- The validators of members. -/
def ofMembers (onReference : String → Validator) : List Shape → List Validator
  | [] => []
  | s :: rest => ofShape onReference s :: ofMembers onReference rest

/-- The validator of an array's items. -/
def ofItems (onReference : String → Validator) : Option Shape → Validator
  | none => .any
  | some s => ofShape onReference s

/-- The validators of properties. -/
def ofProperties (onReference : String → Validator) (required : List String) :
    List (String × Shape) → List (String × Validator)
  | [] => []
  | (name, s) :: rest =>
    (name, ofProperty required name (ofShape onReference s)) ::
      ofProperties onReference required rest

/-- The treatment of properties that are not listed. -/
def ofExtra (onReference : String → Validator) : Extra Shape → Extra Validator
  | .unspecified => .unspecified
  | .forbidden => .forbidden
  | .unrestricted => .unrestricted
  | .typed values => .typed (ofShape onReference values)

end

/-! ### References -/

/-- One use of another shape's name. -/
structure Use where
  target : String
  deferred : Bool
deriving DecidableEq, Repr

mutual

/-- The uses of other shapes, in the order in which they are written. -/
def uses : Validator → List Use
  | .reference target => [⟨target, false⟩]
  | .deferred target => [⟨target, true⟩]
  | .union members => usesOfMembers members
  | .intersection left right => uses left ++ uses right
  | .array items _ _ => uses items
  | .record none => []
  | .record (some values) => uses values
  | .object fields extra => usesOfFields fields ++ usesOfExtra extra
  | .optional inner => uses inner
  | .nullable inner => uses inner
  | _ => []

/-- The uses in members. -/
def usesOfMembers : List Validator → List Use
  | [] => []
  | v :: rest => uses v ++ usesOfMembers rest

/-- The uses in fields. -/
def usesOfFields : List (String × Validator) → List Use
  | [] => []
  | (_, v) :: rest => uses v ++ usesOfFields rest

/-- The uses in the treatment of properties that are not listed. -/
def usesOfExtra : Extra Validator → List Use
  | .typed values => uses values
  | _ => []

end

end Validator

end OpenApiZod
