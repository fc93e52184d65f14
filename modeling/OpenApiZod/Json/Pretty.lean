import OpenApiZod.Json.Value

/-!
# JSON on several lines

Every element and every member has a line of its own, indented by two blanks for each level.
Empty arrays and objects stay on one line.
-/

namespace OpenApiZod.Json

/-- A new line, indented by `depth` levels. -/
def newLine (depth : Nat) : String := "\n".pushn ' ' (2 * depth)

/-- The texts of elements or members between brackets, each on its line. -/
def spread (left right : String) (depth : Nat) (parts : List String) : String :=
  if parts.isEmpty then left ++ right
  else
    left ++ newLine (depth + 1) ++ Text.separated ("," ++ newLine (depth + 1)) parts ++
      newLine depth ++ right

mutual

/-- The text of a value that stands `depth` levels deep. -/
def prettyAt (depth : Nat) : Json → String
  | .arr items => spread "[" "]" depth (prettyItems (depth + 1) items)
  | .obj members => spread "\x7b" "\x7d" depth (prettyMembers (depth + 1) members)
  | v => v.compact

/-- The texts of the elements of an array. -/
def prettyItems (depth : Nat) : List Json → List String
  | [] => []
  | v :: rest => prettyAt depth v :: prettyItems depth rest

/-- The texts of the members of an object. -/
def prettyMembers (depth : Nat) : List (String × Json) → List String
  | [] => []
  | (key, v) :: rest =>
    (Text.quoted key ++ ": " ++ prettyAt depth v) :: prettyMembers depth rest

end

/-- The text of a value on several lines. -/
def pretty (v : Json) : String := prettyAt 0 v

end OpenApiZod.Json
