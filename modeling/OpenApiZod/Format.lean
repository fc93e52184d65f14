import OpenApiZod.Document
import OpenApiZod.Json.Source
import OpenApiZod.Yaml.Source

/-!
# Formats

The two formats of documents, and the reading of a document or of a single schema from a text in
either.
-/

namespace OpenApiZod

/-- A format of documents. -/
inductive Format
  | json
  | yaml
deriving DecidableEq, Repr

/-- Reads a document. -/
def Document.ofText? (format : Format) (text : String) : Option Document :=
  match format with
  | .json => (Json.Tree.read? text).bind Document.read?
  | .yaml => (Yaml.Part.read? text).bind Document.read?

/-- Reads a single schema. -/
def Schema.ofText? (format : Format) (text : String) : Option Schema :=
  let datum := match format with
    | .json => (Json.Tree.read? text).bind (·.datum?)
    | .yaml => (Yaml.Part.read? text).bind (·.datum?)
  datum.bind Schema.ofDatum?

end OpenApiZod
