import OpenApiZod.Script
import OpenApiZod.Validator

/-!
# Validators as code

The expression over the namespace `z` that builds a validator. The argument `binding` gives the
identifier under which a module knows another shape.
-/

namespace OpenApiZod.Validator

/-- A function of the namespace applied to arguments. -/
def zod (function : String) (arguments : List Script) : Script :=
  .call (.identifier "z") function arguments

/-- A method of a validator applied to arguments. -/
def chain (method : String) (arguments : List Script) (e : Script) : Script :=
  .call e method arguments

/-- Adds the rule for a text. -/
def applyStringCheck (e : Script) : StringCheck → Script
  | .datetime => chain "datetime" [] e
  | .date => chain "date" [] e
  | .email => chain "email" [] e
  | .uuid => chain "uuid" [] e
  | .url => chain "url" [] e
  | .regex pattern => chain "regex" [.construct "RegExp" [.json (.str pattern)]] e
  | .min length => chain "min" [.natural length] e
  | .max length => chain "max" [.natural length] e

/-- Adds the rule for a number. -/
def applyNumberCheck (e : Script) : NumberCheck → Script
  | .int => chain "int" [] e
  | .min bound => chain "min" [.decimal bound] e
  | .max bound => chain "max" [.decimal bound] e
  | .gt bound => chain "gt" [.decimal bound] e
  | .lt bound => chain "lt" [.decimal bound] e

/-- Adds a limit on the number of items. -/
def applyLimit (method : String) (limit : Option Nat) (e : Script) : Script :=
  match limit with
  | some n => chain method [.natural n] e
  | none => e

mutual

/-- The code of a validator. -/
def script (binding : String → String) : Validator → Script
  | .reference target => .identifier (binding target)
  | .deferred target => zod "lazy" [.thunk (.identifier (binding target))]
  | .any => zod "any" []
  | .boolean => zod "boolean" []
  | .null => zod "null" []
  | .literal value => zod "literal" [.json value]
  | .enum values => zod "enum" [.list (values.map fun s => .json (.str s))]
  | .string checks => checks.foldl applyStringCheck (zod "string" [])
  | .number checks => checks.foldl applyNumberCheck (zod "number" [])
  | .union members => zod "union" [.list (scripts binding members)]
  | .intersection left right => zod "intersection" [script binding left, script binding right]
  | .array items minItems maxItems =>
    applyLimit "max" maxItems (applyLimit "min" minItems (zod "array" [script binding items]))
  | .record none => zod "record" [zod "string" [], zod "unknown" []]
  | .record (some values) => zod "record" [zod "string" [], script binding values]
  | .object fields extra =>
    applyExtra binding extra (zod "object" [.record (scriptFields binding fields)])
  | .optional inner => chain "optional" [] (script binding inner)
  | .nullable inner => chain "nullable" [] (script binding inner)

/-- The code of members. -/
def scripts (binding : String → String) : List Validator → List Script
  | [] => []
  | v :: rest => script binding v :: scripts binding rest

/-- The code of fields. -/
def scriptFields (binding : String → String) : List (String × Validator) → List (String × Script)
  | [] => []
  | (name, v) :: rest => (name, script binding v) :: scriptFields binding rest

/-- Adds the treatment of properties that are not listed. -/
def applyExtra (binding : String → String) (extra : Extra Validator) (e : Script) : Script :=
  match extra with
  | .unspecified => e
  | .forbidden => chain "strict" [] e
  | .unrestricted => chain "passthrough" [] e
  | .typed values => chain "catchall" [script binding values] e

end

/-- The text of a validator. -/
def render (binding : String → String) (v : Validator) : String :=
  (v.script binding).render

end OpenApiZod.Validator
