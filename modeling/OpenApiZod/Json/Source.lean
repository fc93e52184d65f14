import OpenApiZod.Json.Tree
import OpenApiZod.Source

/-!
# Documents in JSON

How the outer parts of a document are read from a JSON text: texts are strings, `null` stands for
absence, and an object may be written as the array of its fields.
-/

namespace OpenApiZod.Json.Tree

/-- The members of an object all of whose names spell texts. -/
def entries? : Tree → Option (List (String × Tree))
  | .object members => members.mapM fun (name, value) => name.map (·, value)
  | _ => none

instance : Source Tree where
  present?
    | .null => some none
    | t => some (some t)
  text?
    | .string s => s
    | _ => none
  entries? := entries?
  fields? known
    | .array items => Fields.ofList? known items
    | t => (entries? t).bind (Fields.ofEntries? known)
  datum? := datum?

end OpenApiZod.Json.Tree
