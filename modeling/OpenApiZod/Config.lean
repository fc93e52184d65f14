import OpenApiZod.Api
import OpenApiZod.OutputOptions
import OpenApiZod.Yaml.Source

/-!
# Configurations

What a project's configuration file says: which document to read, where to write, how to name
operations, and what the modules look like. Everything has a default.
-/

namespace OpenApiZod

open Yaml (Part)

/-- The configuration of a project. -/
structure Config where
  /-- The document. -/
  input : String
  /-- The directory for generated files. -/
  output : String
  naming : Naming
  options : OutputOptions

/-- The configuration that holds where nothing else is said. -/
def Config.default : Config := ⟨"openapi.yaml", "src/generated", .default, .default⟩

instance : Inhabited Config := ⟨.default⟩

/-- The strategy of that name. -/
def NamingStrategy.ofName? : String → Option NamingStrategy
  | "use_operation_id" => some .operationId
  | "use_route_based" => some .route
  | _ => none

/-- The name of a strategy. -/
def NamingStrategy.name : NamingStrategy → String
  | .operationId => "use_operation_id"
  | .route => "use_route_based"

/-- Reads how operations are named. -/
def Naming.read? (part : Part) : Option Naming := do
  let fields ← Source.fields? ["strategy", "aliases"] part
  return {
    strategy := ← Fields.read? fields "strategy" Naming.default.strategy fun p =>
      p.choice?.bind NamingStrategy.ofName?
    aliases := ← Fields.read? fields "aliases" Naming.default.aliases fun p =>
      (Source.readEntries? Source.text? p).map .ofList }

/-- Reads output options. -/
def OutputOptions.read? (part : Part) : Option OutputOptions := do
  let fields ← Source.fields? ["components_dir", "operation_file", "extension",
    "import_extension", "zod_module", "jsdoc", "index"] part
  let default := OutputOptions.default
  return {
    componentsDir := ← Fields.read? fields "components_dir" default.componentsDir Source.text?
    operationFile := ← Fields.read? fields "operation_file" default.operationFile Source.text?
    extension := ← Fields.read? fields "extension" default.extension Source.text?
    importExtension :=
      ← Fields.read? fields "import_extension" default.importExtension Source.text?
    zodModule := ← Fields.read? fields "zod_module" default.zodModule Source.text?
    jsdoc := ← Fields.read? fields "jsdoc" default.jsdoc Part.bool?
    index := ← Fields.read? fields "index" default.index Part.bool? }

namespace Config

/-- Reads a configuration. -/
def read? (part : Part) : Option Config := do
  let fields ← Source.fields? ["input", "output", "naming", "output_options"] part
  return {
    input := ← Fields.read? fields "input" default.input Source.text?
    output := ← Fields.read? fields "output" default.output Source.text?
    naming := ← Fields.read? fields "naming" default.naming Naming.read?
    options := ← Fields.read? fields "output_options" default.options OutputOptions.read? }

/-- Reads the text of a configuration file. -/
def ofText? (text : String) : Option Config := (Part.read? text).bind read?

/-- The name of the configuration file. -/
def fileName : String := ".zodgen.yaml"

/-- The text of a new configuration file. It spells the defaults. -/
def template : String := String.join [
  "# zodgen configuration\n",
  "input: openapi.yaml\n",
  "output: src/generated\n",
  "\n",
  "naming:\n",
  "  strategy: use_operation_id  # use_operation_id | use_route_based\n",
  "  aliases: \x7b\x7d\n",
  "    # user.create: createUser   # operationId -> custom group name\n",
  "\n",
  "output_options:\n",
  "  components_dir: _components  # group directory for component schemas\n",
  "  operation_file: schema       # <operationId>/schema.ts\n",
  "  extension: ts\n",
  "  import_extension: \"\"         # \".js\" for node16/nodenext module resolution\n",
  "  zod_module: zod\n",
  "  jsdoc: true\n",
  "  index: true                  # generate index.ts barrel exports\n"]

end Config

end OpenApiZod
