import OpenApiZod.Module.Component
import OpenApiZod.Module.Operation

/-!
# Compilations

All files of an interface: the component modules in document order, then the operation modules,
then the index. Of several files with one path only the first is kept.
-/

namespace OpenApiZod

/-- The result of compiling an interface. -/
structure Compilation where
  files : List GeneratedFile
  dependencies : ReferenceGraph
  warnings : List Warning

/-- Namespaces for operations: each operation's name, told apart by underscores. -/
def namespacesFrom (taken : List String) : List String → List String
  | [] => []
  | id :: rest =>
    let name := freshName taken (Naming.camelName id)
    name :: namespacesFrom (taken ++ [name]) rest

/-- The index of an interface, given the directories of its operations: components flat, each
operation as a namespace. -/
def Index.ofApi (api : Api) (options : OutputOptions) (groups : List String) : Index where
  flat := distinct (api.components.keys.map fun name =>
    componentSpecifier ("./" ++ options.componentsDir) name options)
  namespaces := List.zip (namespacesFrom [] (api.operations.values.map (·.operationId)))
    (groups.map fun group =>
      "./" ++ group ++ "/" ++ options.operationFile ++ options.importExtension)

/-- The file of the index. -/
def Index.file (api : Api) (options : OutputOptions) (groups : List String) : GeneratedFile where
  group := none
  fileName := "index." ++ options.extension
  artifact := .index (.ofApi api options groups)

/-- The files whose paths are not in `seen` and did not come before, with warnings about the
others. -/
def keepFirst (seen : List String) : List GeneratedFile → List GeneratedFile × List Warning
  | [] => ([], [])
  | f :: rest =>
    if f.path ∈ seen then
      let (files, warnings) := keepFirst seen rest
      (files, .repeatedPath f.path :: warnings)
    else
      let (files, warnings) := keepFirst (seen ++ [f.path]) rest
      (f :: files, warnings)

/-- Compiles an interface. -/
def Api.compile (api : Api) (options : OutputOptions) : Compilation :=
  let (components, progress) :=
    (ComponentGenerator.ofComponents api.components options).generateTable .start
  let (operations, renamed) := OperationModule.files api options
  let (index, renamedAgain) :=
    if options.index then
      let (groups, warnings) := OperationModule.groups api options
      ([Index.file api options groups], warnings)
    else ([], [])
  let (files, repeated) := keepFirst [] (components ++ operations ++ index)
  { files
    dependencies := progress.graph
    warnings := progress.warnings ++ renamed ++ renamedAgain ++ repeated }

end OpenApiZod
