import OpenApiZod.Module.Comment
import OpenApiZod.OutputOptions
import OpenApiZod.Validator.Script

/-!
# Generated modules

A module imports `z` and the bindings of components, and exports one constant and one type for
each of its declarations. An index exports other modules again. `Module.render` and
`Index.render` are their texts.
-/

namespace OpenApiZod

/-- An import of a component's binding. -/
structure Import where
  component : String
  specifier : String
deriving DecidableEq, Repr

/-- An exported validator. -/
structure Declaration where
  comment : Option Comment
  name : String
  validator : Validator

/-- Whether the header of a module describes its one declaration or the module. -/
inductive Layout
  | single
  | collection
deriving DecidableEq, Repr

/-- A module of validators. Components that are known under another name than their own binding
are listed in `aliases`. -/
structure Module where
  layout : Layout
  zodModule : String
  aliases : Table String
  imports : List Import
  header : Option Comment
  declarations : List Declaration

/-- A module that exports other modules: some of them flat, some as namespaces. -/
structure Index where
  flat : List String
  namespaces : List (String × String)

/-- The name under which a component is known where some have aliases. -/
def bindingUnder (aliases : Table String) (component : String) : String :=
  (aliases.get? component).getD (Identifier.ofName component)

namespace Module

/-- The name under which the module knows a component. -/
def binding (m : Module) (component : String) : String :=
  bindingUnder m.aliases component

/-- The line of an import. -/
def importLine (m : Module) (i : Import) : String :=
  let local_ := match m.aliases.get? i.component with
    | some other => " as " ++ other
    | none => ""
  "import \x7b " ++ Identifier.ofName i.component ++ local_ ++ " \x7d from \"" ++ i.specifier ++
    "\";\n"

/-- The exported constant of a declaration. -/
def constant (m : Module) (d : Declaration) : String :=
  "export const " ++ d.name ++ " = " ++ d.validator.render m.binding ++ ";\n"

/-- The exported type of a declaration. -/
def type (d : Declaration) : String :=
  "export type " ++ d.name ++ " = z.infer<typeof " ++ d.name ++ ">;\n"

/-- A comment on lines of its own. -/
def commentText : Option Comment → String
  | some comment => comment.render ++ "\n"
  | none => ""

/-- A declaration with its comment. -/
def declaration (m : Module) (d : Declaration) : String :=
  let gap := match m.layout with
    | .single => "\n"
    | .collection => ""
  commentText d.comment ++ m.constant d ++ gap ++ type d

/-- The header with what separates it from the declarations. -/
def headerText (m : Module) : String :=
  match m.header, m.layout with
  | none, _ => ""
  | some comment, .single => comment.render ++ "\n"
  | some comment, .collection => comment.render ++ "\n\n"

/-- The text of a module. -/
def render (m : Module) : String :=
  "import \x7b z \x7d from \"" ++ m.zodModule ++ "\";\n" ++
    String.join (m.imports.map m.importLine) ++ "\n" ++ m.headerText ++
    Text.separated "\n" (m.declarations.map m.declaration)

end Module

/-- The text of an index. -/
def Index.render (i : Index) : String :=
  String.join (i.flat.map fun specifier => "export * from \"" ++ specifier ++ "\";\n") ++
    String.join (i.namespaces.map fun (name, specifier) =>
      "export * as " ++ name ++ " from \"" ++ specifier ++ "\";\n")

/-- What a generated file holds. -/
inductive Artifact
  | module (m : Module)
  | index (i : Index)

/-- The text of a generated file. -/
def Artifact.render : Artifact → String
  | .module m => m.render
  | .index i => i.render

/-- A generated file: its directory, if it has one of its own, its name and what it holds. -/
structure GeneratedFile where
  group : Option String
  fileName : String
  artifact : Artifact

namespace GeneratedFile

/-- The path below the output directory. -/
def path (f : GeneratedFile) : String :=
  match f.group with
  | some group => group ++ "/" ++ f.fileName
  | none => f.fileName

/-- The text of the file. -/
def content (f : GeneratedFile) : String := f.artifact.render

end GeneratedFile

end OpenApiZod
