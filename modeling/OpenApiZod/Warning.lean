import OpenApiZod.Text.Quoted

/-!
# Warnings

What can be wrong with a document that is compiled all the same.
-/

namespace OpenApiZod

/-- A finding that does not stop a compilation. -/
inductive Warning
  /-- A reference to a part that does not exist or is a reference itself. -/
  | unresolved (reference : String)
  /-- A reference that does not point into the table where the part would stand. -/
  | invalidReference (reference : String)
  /-- Generating the first name of the chain came back to its last one. -/
  | circular (chain : List String)
  /-- A component refers to a shape that is no component. -/
  | unknownShape (owner target : String)
  /-- The operation's directory is not its id. -/
  | renamed (operationId group : String)
  /-- Two files have one path. -/
  | repeatedPath (path : String)
deriving DecidableEq, Repr

/-- The text of a warning. -/
def Warning.message : Warning → String
  | .unresolved reference => "unresolved reference: " ++ reference
  | .invalidReference reference => "invalid reference format: " ++ reference
  | .circular chain => "circular reference detected: " ++ Text.separated " -> " chain
  | .unknownShape owner target =>
    owner ++ " references unknown shape " ++ target ++ "; no import emitted"
  | .renamed operationId group => "operation " ++ operationId ++ " is written to " ++ group
  | .repeatedPath path => path ++ " is generated more than once; keeping the first"

end OpenApiZod
