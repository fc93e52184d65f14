import OpenApiZod.Identifier
import OpenApiZod.Json.Value

/-!
# Script expressions

The fragment of JavaScript that generated modules use: identifiers, JSON literals, decimal
numbers, calls of methods and constructors, lists, records and functions without parameters.
`Script.render` is the only place where an expression becomes text.
-/

namespace OpenApiZod

/-- An expression. -/
inductive Script
  | identifier (name : String)
  | json (value : Json)
  | decimal (value : Binary64)
  | natural (value : Nat)
  | call (target : Script) (method : String) (arguments : List Script)
  | construct (class_ : String) (arguments : List Script)
  | list (items : List Script)
  | record (fields : List (String × Script))
  | thunk (body : Script)
deriving Repr, Inhabited

namespace Script

/-- A property name as it stands in a record: bare if it is an identifier, else quoted. -/
def key (name : String) : String :=
  if Identifier.isIdentifier name then name else Text.quoted name

mutual

/-- The text of an expression. -/
def render : Script → String
  | .identifier name => name
  | .json value => value.compact
  | .decimal value => Decimal.plainText value
  | .natural value => toString value
  | .call target method arguments =>
    render target ++ "." ++ method ++ "(" ++ Text.separated ", " (renderAll arguments) ++ ")"
  | .construct class_ arguments =>
    "new " ++ class_ ++ "(" ++ Text.separated ", " (renderAll arguments) ++ ")"
  | .list items => "[" ++ Text.separated ", " (renderAll items) ++ "]"
  | .record fields => "\x7b " ++ Text.separated ", " (renderFields fields) ++ " \x7d"
  | .thunk body => "() => " ++ render body

/-- The texts of expressions. -/
def renderAll : List Script → List String
  | [] => []
  | e :: rest => render e :: renderAll rest

/-- The texts of the fields of a record. -/
def renderFields : List (String × Script) → List String
  | [] => []
  | (name, e) :: rest => (key name ++ ": " ++ render e) :: renderFields rest

end

end Script

end OpenApiZod
