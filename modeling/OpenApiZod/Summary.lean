import OpenApiZod.Compilation

/-!
# Summaries

What an inspection shows of an interface: its components with their kinds and direct references,
its operations, and the cycles among the references.
-/

namespace OpenApiZod

namespace Summary

/-- A list of texts. -/
def texts (xs : List String) : Json := .arr (xs.map .str)

/-- The line of a component. -/
def component (graph : ReferenceGraph) (c : Component) : Json :=
  .obj [("dependencies", texts (graph.dependencies c.name)), ("kind", .str c.shape.label),
        ("name", .str c.name)]

/-- The line of an operation. -/
def operation (o : OperationRecord) : Json :=
  .obj [("id", .str o.operationId), ("method", .str o.method.token), ("path", .str o.path),
        ("request", .bool o.requestBody.isSome), ("responses", texts o.responses.keys)]

/-- The summary of an interface whose references are `graph`, with members sorted by name. -/
def ofApi (api : Api) (graph : ReferenceGraph) : Json :=
  .obj [("components", .arr (api.components.values.map (component graph))),
        ("cycles", .arr (graph.cycles.map texts)),
        ("info", .obj [("title", .str api.info.title), ("version", .str api.info.version)]),
        ("operations", .arr (api.operations.values.map operation))]

end Summary

end OpenApiZod
