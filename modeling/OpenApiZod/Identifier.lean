/-!
# Identifiers of the generated code

A generated module declares and imports JavaScript bindings. `Identifier.ofName` turns any name
into one: characters that no ASCII identifier holds become underscores, a leading digit gets an
underscore before it, and a reserved word one after it.
-/

namespace OpenApiZod.Identifier

/-- A character that may stand anywhere but first in an ASCII identifier. -/
def isPart (c : Char) : Bool :=
  c.isAlphanum || c == '_' || c == '$'

/-- A character that may start an ASCII identifier. -/
def isStart (c : Char) : Bool :=
  c.isAlpha || c == '_' || c == '$'

/-- Whether the text is an ASCII identifier, reserved words included. -/
def isIdentifier (s : String) : Bool :=
  match s.toList with
  | [] => false
  | c :: rest => isStart c && rest.all isPart

/-- The words that a `const` binding cannot use, and `z`, which every module imports. -/
def reserved : List String :=
  ["arguments", "await", "break", "case", "catch", "class", "const", "continue", "debugger",
   "default", "delete", "do", "else", "enum", "eval", "export", "extends", "false", "finally",
   "for", "function", "if", "implements", "import", "in", "instanceof", "interface", "let",
   "new", "null", "package", "private", "protected", "public", "return", "static", "super",
   "switch", "this", "throw", "true", "try", "typeof", "var", "void", "while", "with", "yield",
   "z"]

/-- The name with an underscore for each character that is no part of an identifier. -/
def sanitize (name : String) : String :=
  String.ofList (name.toList.map fun c => if isPart c then c else '_')

/-- The binding under which a name is declared and imported. -/
def ofName (name : String) : String :=
  let s := sanitize name
  if s.toList.head?.all Char.isDigit then "_" ++ s
  else if s ∈ reserved then s ++ "_"
  else s

end OpenApiZod.Identifier
