/-!
# Output options

Where generated modules go and what they contain.
-/

namespace OpenApiZod

/-- Where and how modules are written. -/
structure OutputOptions where
  /-- The directory of component modules. -/
  componentsDir : String
  /-- The name of each operation's module, without extension. -/
  operationFile : String
  /-- The extension of generated files. -/
  extension : String
  /-- What follows the path in an import of another generated module. -/
  importExtension : String
  /-- The module that `z` is imported from. -/
  zodModule : String
  /-- Whether declarations and modules have comments. -/
  jsdoc : Bool
  /-- Whether there is an index module. -/
  index : Bool
deriving DecidableEq, Repr

/-- The options that hold where nothing else is said. -/
def OutputOptions.default : OutputOptions :=
  ⟨"_components", "schema", "ts", "", "zod", true, true⟩

end OpenApiZod
