import OpenApiZod.Text.Blank

/-!
# Comments

The documentation comments of generated modules. Text inside a comment never ends it: the end
mark is written with a backslash between its two characters.
-/

namespace OpenApiZod

/-- A documentation comment: a block with its lines, or a single line. -/
inductive Comment
  | block (lines : List String)
  | line (text : String)
deriving DecidableEq, Repr

namespace Comment

/-- A text in which every end mark has a backslash inside. -/
def escape : List Char → List Char
  | [] => []
  | '*' :: '/' :: rest => '*' :: '\\' :: '/' :: escape rest
  | c :: rest => c :: escape rest

/-- One line of a block. -/
def blockLine (line : String) : String :=
  match escape (Text.dropBlankEnd line.toList) with
  | [] => " *\n"
  | cs => " * " ++ String.ofList cs ++ "\n"

/-- The text of a comment. -/
def render : Comment → String
  | .block lines => "/**\n" ++ String.join (lines.map blockLine) ++ " */"
  | .line text => "/** " ++ String.ofList (escape (Text.collapseBlanks text).toList) ++ " */"

end Comment

end OpenApiZod
