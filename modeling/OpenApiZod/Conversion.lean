import OpenApiZod.Component
import OpenApiZod.CycleGroups
import OpenApiZod.Validator

/-!
# From components to validators

Where a shape refers to another one, `Scope.convert` writes one of three things. It writes the
other shape's binding. It defers the reference, so that the binding is not needed while modules
load, if the other shape is being expanded already or lies on a common cycle. Or, when it
converts inline, it puts the other shape's validator in the reference's place.

A `Session` is a run of conversions that share one reference graph: it records which shape refers
to which, and remembers the deferred references.
-/

namespace OpenApiZod

/-- The shapes that a conversion can refer to, and the cycles among them if they matter. -/
structure Scope where
  components : ComponentTable
  cycles : Option CycleGroups

namespace Scope

/-- The validator of a shape. `path` lists the shapes being expanded, outermost first, and `owner`
is the shape whose own references these are. -/
def convert (scope : Scope) (path : List String) (owner : String) (inline : Bool) (shape : Shape) :
    Validator :=
  shape |> .ofShape fun target =>
    if _hpath : target ∈ path then .deferred target
    else if !inline && scope.cycles.any (·.shared owner target) then .deferred target
    else if inline then
      match _h : scope.components.get? target with
      | some component => scope.convert (path ++ [target]) target true component.shape
      | none => .reference target
    else .reference target
termination_by remaining scope.components.keys path
decreasing_by
  exact remaining_append_lt (Table.mem_keys_of_get? _h) _hpath

end Scope

/-- The targets that a conversion records against its owner: all that it refers to, except the
owner itself when it is deferred. Inline conversions and those without an owner record none. -/
def recordedTargets (owner : String) (inline : Bool) (v : Validator) : List String :=
  if inline || owner.isEmpty then []
  else (v.uses.filter fun use => !(use.deferred && use.target == owner)).map (·.target)

/-- The targets whose binding is not needed while modules load. -/
def deferredTargets (v : Validator) : List String :=
  (v.uses.filter (·.deferred)).map (·.target)

/-- A run of conversions. -/
structure Session where
  scope : Scope
  path : List String
  graph : ReferenceGraph
  deferred : List String

namespace Session

/-- A session in which nothing has been converted. -/
def start (scope : Scope) : Session := ⟨scope, [], .empty, []⟩

/-- Converts one shape; a missing one accepts everything. -/
def convert (s : Session) (owner : String) (inline : Bool) (shape : Option Shape) :
    Validator × Session :=
  let v : Validator := match shape with
    | some shape => s.scope.convert s.path owner inline shape
    | none => .any
  (v, { s with
    graph := s.graph.recordAll owner (recordedTargets owner inline v)
    deferred := extendNew s.deferred (deferredTargets v) })

end Session

end OpenApiZod
