import OpenApiZod.ReferenceGraph
import OpenApiZod.Shape

/-!
# Components

The named shapes of a document, in its order, and the graph of the references written in them.
-/

namespace OpenApiZod

/-- A named shape. -/
structure Component where
  name : String
  description : Option String
  shape : Shape

/-- The component that a named schema gives. A reference has no description of its own. -/
def Component.ofSchema (name : String) (schema : Schema) : Component where
  name := name
  description :=
    match schema with
    | .inline keywords => keywords.description
    | .reference _ => none
  shape := .ofSchema schema

/-- Components by name. -/
abbrev ComponentTable := Table Component

/-- One edge for each reference written in a component's own shape. -/
def ReferenceGraph.ofComponents (components : ComponentTable) : ReferenceGraph :=
  components.entries.foldl (fun g e => g.recordAll e.1 e.2.shape.references) .empty

end OpenApiZod
