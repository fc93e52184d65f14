import OpenApiZod.Api
import OpenApiZod.Conversion
import OpenApiZod.Fresh
import OpenApiZod.Module
import OpenApiZod.PathSegment

/-!
# Operation modules

One module for each operation, in a directory of its own: the validator of its request body, if
it has one, and one validator for each response.
-/

namespace OpenApiZod

/-- The constant of a response: `Response201` for `201`, `ResponseDefault` for `default`. -/
def responseName (status : String) : String :=
  if status.toList.head?.any Char.isDigit then "Response" ++ Identifier.sanitize status
  else "Response" ++ Naming.pascalName status

/-- The constant of a request body. -/
def requestName : String := "Request"

/-- The header of an operation: its summary, its id and its route. -/
def OperationRecord.headerLines (o : OperationRecord) : List String :=
  let summary := Text.trimmedLines (o.summary.getD "")
  (if summary.isEmpty then [] else summary ++ [""]) ++
    ["operationId: " ++ o.operationId, o.method.token ++ " " ++ o.path]

/-- The comment of a response: its status and, if there is one, its description. -/
def responseComment (status : String) (description : String) : Comment :=
  if (Text.strip description.toList).isEmpty then .line status
  else .line (status ++ ": " ++ description)

namespace OperationModule

/-- The directories of operations, in order, with warnings about those that are not the
operation's id. Underscores keep a directory apart from those before it and from `taken`. -/
def groupsFrom (taken : List String) : List String → List String × List Warning
  | [] => ([], [])
  | id :: rest =>
    let group := freshName taken (pathSegment id)
    let (groups, warnings) := groupsFrom (taken ++ [group]) rest
    (group :: groups, (if group = id then [] else [.renamed id group]) ++ warnings)

/-- The directories of an interface's operations. None is the components' directory or has the
name of the index. -/
def groups (api : Api) (options : OutputOptions) : List String × List Warning :=
  groupsFrom [options.componentsDir, "index." ++ options.extension]
    (api.operations.values.map (·.operationId))

/-- The constants that an operation's module declares. -/
def locals (o : OperationRecord) : List String :=
  distinct (o.responses.keys.map responseName ++
    if o.requestBody.isSome then [requestName] else [])

/-- Other names for the components whose bindings are constants of the module: neither such a
constant nor the binding of another component. -/
def aliases (components : ComponentTable) (locals : List String) : Table String :=
  let bindings := components.keys.map Identifier.ofName
  .ofList ((components.keys.filter fun name => Identifier.ofName name ∈ locals).map fun name =>
    (name, freshName (locals ++ bindings) (Identifier.ofName name ++ "_")))

/-- The validator of a request body. A reference stands for the component itself; anything else
is expanded in place. -/
def requestValidator (scope : Scope) : Shape → Validator
  | .reference target => .reference target
  | shape => scope.convert [] "" true shape

/-- The validator of a response body. As for requests, but an object keeps the references of its
properties. -/
def responseValidator (scope : Scope) : Option Shape → Validator
  | none => .any
  | some (.reference target) => .reference target
  | some (.object properties required extra) =>
    scope.convert [] "" false (.object properties required extra)
  | some shape => scope.convert [] "" true shape

/-- The bodies of an operation, in the order of their validators. -/
def bodies (o : OperationRecord) : List Shape :=
  o.requestBody.toList ++ o.responses.values.filterMap (·.body)

/-- The module of an operation. -/
def ofOperation (components : ComponentTable) (options : OutputOptions) (o : OperationRecord) :
    Module :=
  let scope : Scope := ⟨components, none⟩
  let request := o.requestBody.map fun body =>
    (⟨none, requestName, requestValidator scope body⟩ : Declaration)
  let responses := o.responses.entries.map fun (status, r) =>
    ({ comment := if options.jsdoc then some (responseComment status r.description) else none
       name := responseName status
       validator := responseValidator scope r.body } : Declaration)
  let declarations := request.toList ++ responses
  let referenced := distinct ((bodies o).flatMap Shape.references ++
    declarations.flatMap fun d => deferredTargets d.validator)
  { layout := .collection
    zodModule := options.zodModule
    aliases := aliases components (locals o)
    imports := (referenced.filter components.contains).map fun name =>
      ⟨name, componentSpecifier ("../" ++ options.componentsDir) name options⟩
    header := if options.jsdoc then some (.block o.headerLines) else none
    declarations }

/-- The file of an operation in its directory. -/
def file (components : ComponentTable) (options : OutputOptions) (o : OperationRecord)
    (group : String) : GeneratedFile where
  group := some group
  fileName := options.operationFile ++ "." ++ options.extension
  artifact := .module (ofOperation components options o)

/-- The files of an interface's operations, in order. -/
def files (api : Api) (options : OutputOptions) : List GeneratedFile × List Warning :=
  let (groups, warnings) := groups api options
  (List.zipWith (file api.components options) api.operations.values groups, warnings)

end OperationModule

end OpenApiZod
