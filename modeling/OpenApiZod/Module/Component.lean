import OpenApiZod.Conversion
import OpenApiZod.Module
import OpenApiZod.PathSegment
import OpenApiZod.Route
import OpenApiZod.Warning

/-!
# Component modules

One module for each component. `ComponentGenerator.generate` writes the modules of the shapes
that a component refers to before the component's own, and keeps each module it has written.
References between members of one cycle are deferred, so that the modules load in any order.
-/

namespace OpenApiZod

/-- What all component modules are generated from. -/
structure ComponentGenerator where
  scope : Scope
  options : OutputOptions

/-- What generation has produced so far: the references recorded, the modules written and the
warnings given. -/
structure Progress where
  graph : ReferenceGraph
  cache : Table GeneratedFile
  warnings : List Warning

/-- Nothing produced. -/
def Progress.start : Progress := ⟨.empty, .empty, []⟩

/-- Adds a warning. -/
def Progress.warn (p : Progress) (w : Warning) : Progress :=
  { p with warnings := p.warnings ++ [w] }

/-- The lines that list the properties of an object. -/
def propertyLines (properties : List (String × Shape)) (required : List String) : List String :=
  properties.map fun (name, shape) =>
    let presence := if name ∈ required then "required" else "optional"
    "- " ++ name ++ " (" ++ presence ++ "): " ++ shape.label

/-- The header of a component: its description, or a label made of its name, and below it the
properties of an object. -/
def Component.headerLines (c : Component) : List String :=
  let description := Text.trimmedLines (c.description.getD "")
  let title := if description.isEmpty then [Naming.humanLabel c.name] else description
  let listed (properties : List (String × Shape)) (required : List String) : List String :=
    if properties.isEmpty then title else title ++ "" :: propertyLines properties required
  match c.shape with
  | .object properties required _ => listed properties required
  | .nullable (.object properties required _) => listed properties required
  | _ => title

namespace ComponentGenerator

/-- A generator for the components of a table. -/
def ofComponents (components : ComponentTable) (options : OutputOptions) : ComponentGenerator :=
  ⟨⟨components, some (ReferenceGraph.ofComponents components).cycleGroups⟩, options⟩

/-- The components. -/
def components (g : ComponentGenerator) : ComponentTable := g.scope.components

/-- The file of a component, given its validator and the components it imports. -/
def file (g : ComponentGenerator) (c : Component) (v : Validator) (imports : List String) :
    GeneratedFile where
  group := some g.options.componentsDir
  fileName := pathSegment c.name ++ "." ++ g.options.extension
  artifact := .module {
    layout := .single
    zodModule := g.options.zodModule
    aliases := .empty
    imports := imports.map fun name => ⟨name, componentSpecifier "." name g.options⟩
    header := if g.options.jsdoc then some (.block c.headerLines) else none
    declarations := [⟨none, Identifier.ofName c.name, v⟩] }

mutual

/-- The file of a component, with all that is written on the way to it. `chain` lists the
components whose files are being generated; one of these, or a name that is no component, gives
a warning and no file. -/
def generate (g : ComponentGenerator) (chain : List String) (name : String) (p : Progress) :
    Option GeneratedFile × Progress :=
  match p.cache.get? name with
  | some file => (some file, p)
  | none =>
    if _hchain : name ∈ chain then
      (none, p.warn (.circular (chain ++ [name])))
    else
      match _h : g.components.get? name with
      | none => (none, p.warn (.unresolved name))
      | some component =>
        let chain' := chain ++ [name]
        let v := g.scope.convert chain' name false component.shape
        let graph := p.graph.recordAll name (recordedTargets name false v)
        let (imports, p) := g.generateAll name chain' (graph.dependencies name) { p with graph }
        let file := g.file component v imports
        (some file, { p with cache := p.cache.insert name file })
termination_by (remaining g.components.keys chain, 0)
decreasing_by
  exact Prod.Lex.left _ _ (remaining_append_lt (Table.mem_keys_of_get? _h) _hchain)

/-- Generates those of `targets` that are components and gives their names; the others give a
warning against `owner`. -/
def generateAll (g : ComponentGenerator) (owner : String) (chain targets : List String)
    (p : Progress) : List String × Progress :=
  match targets with
  | [] => ([], p)
  | target :: rest =>
    if g.components.contains target then
      let (_, p) := g.generate chain target p
      let (imports, p) := g.generateAll owner chain rest p
      (target :: imports, p)
    else
      g.generateAll owner chain rest (p.warn (.unknownShape owner target))
termination_by (remaining g.components.keys chain, targets.length + 1)

end

/-- Generates several components one after the other. -/
def generateEach (g : ComponentGenerator) (names : List String) (p : Progress) :
    List GeneratedFile × Progress :=
  names.foldl (fun (files, p) name =>
    let (file, p) := g.generate [] name p
    (files ++ file.toList, p)) ([], p)

/-- Generates every component, in the order of the table. -/
def generateTable (g : ComponentGenerator) (p : Progress) : List GeneratedFile × Progress :=
  g.generateEach g.components.keys p

end ComponentGenerator

end OpenApiZod
