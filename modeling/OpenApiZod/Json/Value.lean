import OpenApiZod.Decimal.Notation
import OpenApiZod.Text.Quoted

/-!
# JSON values

The values that `enum` and `const` list. Numbers are integers of 64 bits or double-precision
numbers; the members of an object are sorted by name.
-/

namespace OpenApiZod

/-- A JSON value. -/
inductive Json
  | null
  | bool (b : Bool)
  | int (n : Int)
  | float (x : Binary64)
  | str (s : String)
  | arr (items : List Json)
  | obj (members : List (String × Json))
deriving Repr, Inhabited

namespace Json

/-- The text of a list of elements or members between brackets. -/
def bracketed (left right : String) (parts : List String) : String :=
  left ++ Text.separated "," parts ++ right

mutual

/-- The compact text of a value. -/
def compact : Json → String
  | .null => "null"
  | .bool b => if b then "true" else "false"
  | .int n => toString n
  | .float x => Decimal.jsonText x
  | .str s => Text.quoted s
  | .arr items => bracketed "[" "]" (compactItems items)
  | .obj members => bracketed "\x7b" "\x7d" (compactMembers members)

/-- The compact texts of the elements of an array. -/
def compactItems : List Json → List String
  | [] => []
  | v :: rest => compact v :: compactItems rest

/-- The compact texts of the members of an object. -/
def compactMembers : List (String × Json) → List String
  | [] => []
  | (key, v) :: rest => (Text.quoted key ++ ":" ++ compact v) :: compactMembers rest

end

end Json

end OpenApiZod
