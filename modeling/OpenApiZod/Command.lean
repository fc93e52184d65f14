import OpenApiZod.Config
import OpenApiZod.Format
import OpenApiZod.Json.Pretty
import OpenApiZod.Output
import OpenApiZod.Summary
import OpenApiZod.Yaml.Printer

/-!
# Commands

What can be asked of the program on its command line, and what it does then: `generate` writes the
modules of a document, `inspect` shows its summary, and `init` writes a configuration file. Every
command runs in any place where files are kept (`Storage`), and its first error ends it.
-/

namespace OpenApiZod

/-- A command with its options. -/
inductive Command
  /-- Writes the modules of a document. -/
  | generate (input output : Option String)
  /-- Shows the summary of a document. -/
  | inspect (input : String) (format : Format)
  /-- Writes a configuration file, over another one only if forced to. -/
  | init (force : Bool)
deriving DecidableEq, Repr

/-- Why a command ends early. -/
inductive CommandError
  | unreadableConfig
  | invalidConfig
  | missingInput (path : String)
  | invalidDocument (format : Format)
  | incompleteDocument (path : String)
  | outputDirectory (path : String)
  | output (error : OutputError)
  | existingConfig
  | unwritableConfig
deriving DecidableEq, Repr

/-- The text of the error. -/
def CommandError.message : CommandError → String
  | .unreadableConfig =>
    "failed to read config " ++ Config.fileName ++ ": Is a directory (os error 21)"
  | .invalidConfig => "failed to parse config " ++ Config.fileName
  | .missingInput path => "failed to read " ++ path
  | .invalidDocument .json => "failed to parse JSON"
  | .invalidDocument .yaml => "failed to parse YAML"
  | .incompleteDocument path => "failed to lower " ++ path
  | .outputDirectory path => "failed to create output directory " ++ path
  | .output error => error.message
  | .existingConfig => Config.fileName ++ " already exists. Use --force to overwrite."
  | .unwritableConfig => "failed to write " ++ Config.fileName

/-- What a command prints: its result, and notes on what it did. -/
structure Printed where
  result : String
  notes : String
deriving DecidableEq, Repr

namespace Command

/-! ### Arguments -/

/-- The value of an option and the arguments after it, if the arguments start with the option:
`-i F`, `-iF`, `-i=F`, `--input F` or `--input=F`. -/
def optionValue? (short : Option Char) (long : String) :
    List String → Option (String × List String)
  | [] => none
  | argument :: rest =>
    let isName := argument == "--" ++ long || short.any fun c => argument == "-" ++ c.toString
    if isName then
      match rest with
      | value :: rest => some (value, rest)
      | [] => none
    else if ("--" ++ long ++ "=").toList.isPrefixOf argument.toList then
      some (String.ofList (argument.toList.drop (long.length + 3)), rest)
    else
      match short, argument.toList with
      | some c, '-' :: c' :: '=' :: value => if c = c' then some (String.ofList value, rest) else none
      | some c, '-' :: c' :: value => if c = c' then some (String.ofList value, rest) else none
      | _, _ => none

/-- An option with its value takes at least one argument. -/
theorem optionValue?_length_lt {short : Option Char} {long value : String}
    {arguments rest : List String} (h : optionValue? short long arguments = some (value, rest)) :
    rest.length < arguments.length := by
  unfold optionValue? at h
  split at h <;> grind

/-- The format of that name. -/
def formatOfName? : String → Option Format
  | "yaml" => some .yaml
  | "json" => some .json
  | _ => none

/-- The options of `generate`, each at most once. -/
def generateOptions? (input output : Option String) (arguments : List String) : Option Command :=
  if arguments.isEmpty then some (.generate input output)
  else
    match hinput : optionValue? (some 'i') "input" arguments with
    | some (value, rest) =>
      have := optionValue?_length_lt hinput
      if input.isSome then none else generateOptions? (some value) output rest
    | none =>
      match houtput : optionValue? (some 'o') "output" arguments with
      | some (value, rest) =>
        have := optionValue?_length_lt houtput
        if output.isSome then none else generateOptions? input (some value) rest
      | none => none
termination_by arguments.length

/-- The options of `inspect`, each at most once. The input has to be given. -/
def inspectOptions? (input : Option String) (format : Option Format) (arguments : List String) :
    Option Command :=
  if arguments.isEmpty then input.map fun path => .inspect path (format.getD .yaml)
  else
    match hinput : optionValue? (some 'i') "input" arguments with
    | some (value, rest) =>
      have := optionValue?_length_lt hinput
      if input.isSome then none else inspectOptions? (some value) format rest
    | none =>
      match hformat : optionValue? none "format" arguments with
      | some (value, rest) =>
        have := optionValue?_length_lt hformat
        match formatOfName? value with
        | some chosen => if format.isSome then none else inspectOptions? input (some chosen) rest
        | none => none
      | none => none
termination_by arguments.length

/-- The command that arguments ask for. -/
def ofArguments? : List String → Option Command
  | "generate" :: rest => generateOptions? none none rest
  | "inspect" :: rest => inspectOptions? none none rest
  | ["init"] => some (.init false)
  | ["init", "--force"] => some (.init true)
  | _ => none

/-! ### Running -/

variable {m : Type → Type} [Monad m] [Storage m]

/-- The configuration of the working directory. -/
def loadConfig : ExceptT CommandError m Config := do
  if !(← Storage.exists? Config.fileName) then
    return .default
  else
    match ← Storage.read? Config.fileName with
    | none => throw .unreadableConfig
    | some text =>
      match Config.ofText? text with
      | none => throw .invalidConfig
      | some config => return config

/-- The format of the document at a path: JSON if its extension says so. -/
def formatOf (path : String) : Format := if Path.extension? path = some "json" then .json else .yaml

/-- The interface that the document at a path describes. -/
def loadApi (config : Config) (path : String) : ExceptT CommandError m Api := do
  match ← Storage.read? path with
  | none => throw (.missingInput path)
  | some text =>
    match Document.ofText? (formatOf path) text with
    | none => throw (.invalidDocument (formatOf path))
    | some document =>
      match Api.ofDocument config.naming document with
      | .error .missingTables => throw (.incompleteDocument path)
      | .ok api => return api.value

/-- The note on cycles, if there are any. -/
def cycleNote (count : Nat) : String :=
  if count = 0 then ""
  else
    "  note: " ++ toString count ++ " reference cycle(s) emitted with z.lazy; " ++
      "run \x60zodgen inspect\x60 for details\n"

/-- The note on what was written. -/
def writtenNote (api : Api) (compilation : Compilation) (directory : String) : String :=
  "Generated " ++ toString compilation.files.length ++ " files (" ++
    toString api.components.size ++ " components, " ++ toString api.operations.size ++
    " operations) in " ++ directory ++ "\n"

/-- Writes the modules of a document. -/
def runGenerate (input output : Option String) : ExceptT CommandError m Printed := do
  let config ← loadConfig
  let api ← loadApi config (input.getD config.input)
  let compilation := api.compile config.options
  let directory := output.getD config.output
  if !(← Storage.makeDirectories directory) then
    throw (.outputDirectory directory)
  else
    match ← Output.writeAll directory (compilation.files.map fun f => ⟨f.path, f.content⟩) with
    | some error => throw (.output error)
    | none =>
      let cycles := compilation.dependencies.cycles.length
      return ⟨"", cycleNote cycles ++ writtenNote api compilation directory⟩

/-- Shows the summary of a document. -/
def runInspect (input : String) (format : Format) : ExceptT CommandError m Printed := do
  let config ← loadConfig
  let api ← loadApi config input
  let summary := Summary.ofApi api (api.compile config.options).dependencies
  match format with
  | .json => return ⟨summary.pretty ++ "\n", ""⟩
  | .yaml => return ⟨Yaml.Printer.document summary, ""⟩

/-- Writes a configuration file. -/
def runInit (force : Bool) : ExceptT CommandError m Printed := do
  if (← Storage.exists? Config.fileName) && !force then
    throw .existingConfig
  else if !(← Storage.write Config.fileName Config.template) then
    throw .unwritableConfig
  else
    return ⟨"", "Created " ++ Config.fileName ++ "\n"⟩

/-- Runs a command. -/
def run (command : Command) : ExceptT CommandError m Printed :=
  match command with
  | .generate input output => runGenerate input output
  | .inspect input format => runInspect input format
  | .init force => runInit force

/-- Runs a command on given files. -/
def runOn (command : Command) (files : FileSystem) :
    Except CommandError Printed × FileSystem :=
  ((command.run : ExceptT CommandError (StateM FileSystem) Printed).run).run files

end Command

end OpenApiZod
