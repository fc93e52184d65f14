import OpenApiZod.Proofs.MissingShapes
import OpenApiZod.Proofs.PathSegments

/-!
# Where imports lead

The specifier of an import, followed from the directory of the module that it stands in, leads to
the module of the imported component, and that module exports the binding that the import names
(`imports_lead_to_exports`).

Of several components whose names have one path segment only the first keeps its module. The others
are imported from it all the same, since their bindings are equal too.
-/

namespace OpenApiZod

/-! ### Directories -/

/-- The directory of a file. -/
def GeneratedFile.directory (f : GeneratedFile) : Location := (Path.resolve [] f.path).dropLast

/-- A file with a plain name in a plain group lies in that group's directory. -/
theorem GeneratedFile.directory_eq {f : GeneratedFile} {group : String}
    (hgroup : f.group = some group) (hplain : IsPlain group) (hname : IsPlain f.fileName) :
    f.directory = [group] := by
  rw [directory, path, hgroup]
  show (Path.resolve [] (group ++ "/" ++ f.fileName)).dropLast = [group]
  rw [Path.resolve_slash (Path.isAbsolute_of_isPlain hplain) (Path.IsPlain.ne_empty hplain) hname,
    Path.resolve_of_isPlain hplain, List.nil_append, List.dropLast_concat]

/-! ### Specifiers -/

/-- Where a module stands and how its imports of components start. -/
inductive Starts (options : OutputOptions) : Location → String → Prop
  | component : Starts options [options.componentsDir] "."
  | operation {group : String} (h : IsPlain group) :
      Starts options [group] ("../" ++ options.componentsDir)

/-- The specifier of a component, followed from the module that imports it, leads to the component's
place among the component modules. -/
theorem Starts.resolve_specifier {options : OutputOptions} {directory : Location} {start : String}
    (h : Starts options directory start) (hdir : IsPlain options.componentsDir) (name : String) :
    Path.resolve directory (start ++ "/" ++ pathSegment name) =
      [options.componentsDir, pathSegment name] := by
  have hsegment := isPlain_pathSegment name
  cases h with
  | component =>
      rw [Path.resolve_slash (by decide) (by decide) hsegment]
      rfl
  | operation hgroup =>
      have hup : "../" ++ options.componentsDir = ".." ++ "/" ++ options.componentsDir := rfl
      have habsolute : Path.isAbsolute (".." ++ "/" ++ options.componentsDir) = false := by
        rw [Path.isAbsolute, String.toList_append, String.toList_append]
        rfl
      have hne : ".." ++ "/" ++ options.componentsDir ≠ "" := by
        intro heq
        have hnil := congrArg String.toList heq
        rw [String.toList_append, String.toList_append] at hnil
        exact List.cons_ne_nil _ _ hnil
      rw [hup, Path.resolve_slash habsolute hne hsegment,
        Path.resolve_slash (by decide) (by decide) hdir]
      rfl

/-- All imports of a module are of components, with specifiers that start in one way. -/
def Module.ImportsComponents (components : ComponentTable) (options : OutputOptions)
    (start : String) (m : Module) : Prop :=
  ∀ i ∈ m.imports, i.component ∈ components.keys ∧
    i.specifier = start ++ "/" ++ pathSegment i.component ++ options.importExtension

/-- The bindings that a module exports. -/
def Module.exports (m : Module) : List String := m.declarations.map (·.name)

section Files

variable {components : ComponentTable} {options : OutputOptions} {m : Module}

/-- Imports that are filtered by the table are of components. -/
theorem importsComponents_of_imports_eq {names : List String} {start : String}
    (h : m.imports = (names.filter components.contains).map fun name =>
      ⟨name, componentSpecifier start name options⟩) :
    m.ImportsComponents components options start := by
  intro i hi
  rw [h] at hi
  obtain ⟨name, hname, rfl⟩ := List.mem_map.mp hi
  exact ⟨Table.contains_iff.mp (List.mem_filter.mp hname).2, rfl⟩

/-- What the module of a component is called, exports and imports. -/
theorem ComponentGenerator.module_of_fileOf? (hnamed : Named components) {name : String}
    {f : GeneratedFile} (h : fileOf? components options name = some f) :
    f.group = some options.componentsDir ∧
      f.fileName = pathSegment name ++ "." ++ options.extension ∧
      ∃ m, f.artifact = .module m ∧ m.exports = [Identifier.ofName name] ∧
        m.ImportsComponents components options "." := by
  obtain ⟨c, hc, rfl⟩ := eq_file_of_fileOf? h
  obtain rfl := hnamed name c hc
  exact ⟨rfl, rfl, _, rfl, rfl, importsComponents_of_imports_eq rfl⟩

/-- An operation's module imports components only, from the directory beside its own. -/
theorem OperationModule.importsComponents_ofOperation (o : OperationRecord) :
    (ofOperation components options o).ImportsComponents components options
      ("../" ++ options.componentsDir) :=
  importsComponents_of_imports_eq rfl

end Files

/-! ### Files that are kept -/

/-- Files that are kept were there before. -/
theorem mem_of_mem_keepFirst {seen : List String} {fs : List GeneratedFile} {f : GeneratedFile}
    (h : f ∈ (keepFirst seen fs).1) : f ∈ fs := by
  induction fs generalizing seen with
  | nil => exact absurd h List.not_mem_nil
  | cons g rest ih =>
      rw [keepFirst] at h
      split at h
      · exact List.mem_cons_of_mem _ (ih h)
      · rcases List.mem_cons.mp h with rfl | h
        · exact List.mem_cons_self
        · exact List.mem_cons_of_mem _ (ih h)

/-- Files that are kept have different paths, and none that was seen before. -/
theorem nodup_keepFirst (seen : List String) (fs : List GeneratedFile) :
    ((keepFirst seen fs).1.map (·.path)).Nodup ∧
      ∀ f ∈ (keepFirst seen fs).1, f.path ∉ seen := by
  induction fs generalizing seen with
  | nil => exact ⟨List.nodup_nil, fun _ h => absurd h List.not_mem_nil⟩
  | cons g rest ih =>
      rw [keepFirst]
      split
      · exact ih seen
      · rename_i hseen
        obtain ⟨hnodup, hnew⟩ := ih (seen ++ [g.path])
        refine ⟨List.nodup_cons.mpr ⟨fun hmem => ?_, hnodup⟩, fun f hf => ?_⟩
        · obtain ⟨f, hf, hpath⟩ := List.mem_map.mp hmem
          exact hnew f hf (List.mem_append_right _ (List.mem_singleton.mpr hpath))
        · rcases List.mem_cons.mp hf with rfl | hf
          · exact hseen
          · exact fun hmem => hnew f hf (List.mem_append_left _ hmem)

/-- The path of each of the first files belongs to one of them that is kept. -/
theorem exists_kept_of_mem {seen : List String} {fs fs' : List GeneratedFile} {f : GeneratedFile}
    (hf : f ∈ fs) (hseen : f.path ∉ seen) :
    ∃ f' ∈ fs, f' ∈ (keepFirst seen (fs ++ fs')).1 ∧ f'.path = f.path := by
  induction fs generalizing seen with
  | nil => exact absurd hf List.not_mem_nil
  | cons g rest ih =>
      rw [List.cons_append, keepFirst]
      by_cases hpath : g.path = f.path
      · rw [if_neg (hpath ▸ hseen)]
        exact ⟨g, List.mem_cons_self, List.mem_cons_self, hpath⟩
      · have hrest : f ∈ rest := by
          rcases List.mem_cons.mp hf with rfl | hrest
          · exact absurd rfl hpath
          · exact hrest
        split
        · obtain ⟨f', hf', hkept, heq⟩ := ih hrest hseen
          exact ⟨f', List.mem_cons_of_mem _ hf', hkept, heq⟩
        · have hseen' : f.path ∉ seen ++ [g.path] := by
            rw [List.mem_append, List.mem_singleton, not_or]
            exact ⟨hseen, fun heq => hpath heq.symm⟩
          obtain ⟨f', hf', hkept, heq⟩ := ih hrest hseen'
          exact ⟨f', List.mem_cons_of_mem _ hf', List.mem_cons_of_mem _ hkept, heq⟩

section Compiled

variable {api : Api} {options : OutputOptions}

/-- Every module that is compiled stands in a directory from which its imports lead to the component
modules. -/
theorem Api.starts_of_mem_files (hnamed : Named api.components)
    (hdir : IsPlain options.componentsDir) (hfile : IsPlain options.operationFile)
    (hextension : IsPlain options.extension) {f : GeneratedFile}
    (hf : f ∈ (api.compile options).files) {m : Module} (hm : f.artifact = .module m) :
    ∃ start, Starts options f.directory start ∧
      m.ImportsComponents api.components options start := by
  rw [files_compile] at hf
  rcases mem_written_iff.mp (mem_of_mem_keepFirst hf) with ⟨name, -, hfile⟩ | hf | ⟨-, rfl⟩
  · obtain ⟨hgroup, hname, m', hm', -, himports⟩ :=
      ComponentGenerator.module_of_fileOf? hnamed hfile
    obtain rfl := Artifact.module.inj (hm.symm.trans hm')
    have hplain : IsPlain f.fileName := hname ▸ (isPlain_pathSegment name).extension hextension
    rw [GeneratedFile.directory_eq hgroup hdir hplain]
    exact ⟨_, Starts.component, himports⟩
  · obtain ⟨o, -, group, hgroup, rfl⟩ := OperationModule.exists_operation_of_mem_files hf
    obtain rfl := Artifact.module.inj hm
    have hplain := isPlain_of_mem_groups hgroup
    rw [GeneratedFile.directory_eq rfl hplain (hfile.extension hextension)]
    exact ⟨_, Starts.operation hplain, OperationModule.importsComponents_ofOperation o⟩
  · exact nomatch hm

/-- The path of a component's module is made of the path segment of its name. -/
theorem ComponentGenerator.path_of_fileOf? {components : ComponentTable} (hnamed : Named components)
    {name : String} {f : GeneratedFile} (h : fileOf? components options name = some f) :
    f.path = options.componentsDir ++ "/" ++ (pathSegment name ++ "." ++ options.extension) := by
  obtain ⟨hgroup, hfileName, -⟩ := module_of_fileOf? hnamed h
  rw [GeneratedFile.path, hgroup, hfileName]

/-- Of the components with one path segment there is one whose file is compiled. -/
theorem Api.exists_compiled_component (options : OutputOptions) (hnamed : Named api.components)
    {name : String} (hname : name ∈ api.components.keys) :
    ∃ name' ∈ api.components.keys, pathSegment name' = pathSegment name ∧
      ∃ f ∈ (api.compile options).files,
        ComponentGenerator.fileOf? api.components options name' = some f := by
  have hsome : (ComponentGenerator.fileOf? api.components options name).isSome = true :=
    ComponentGenerator.isSome_fileOf?_iff.mpr hname
  obtain ⟨f, hfile⟩ := Option.isSome_iff_exists.mp hsome
  have hf : f ∈ ((ComponentGenerator.ofComponents api.components options).generateTable
      .start).1 := ComponentGenerator.mem_generateTable_iff.mpr ⟨name, hname, hfile⟩
  obtain ⟨f', hf', hkept, heq⟩ := exists_kept_of_mem hf List.not_mem_nil
  obtain ⟨name', hname', hfile'⟩ := ComponentGenerator.mem_generateTable_iff.mp hf'
  refine ⟨name', hname', ?_, f', ?_, hfile'⟩
  · rw [ComponentGenerator.path_of_fileOf? hnamed hfile,
      ComponentGenerator.path_of_fileOf? hnamed hfile'] at heq
    simpa only [String.append_right_inj, String.append_left_inj] using heq
  · rw [files_compile, written, List.append_assoc]
    exact hkept

end Compiled

/-- **Imports lead to exports.** Where the component directory, the name of operation modules and
the extension are plain names, take any import in a module that is compiled. Its specifier, without
what is added to every specifier and followed from the directory of the module, is the path of one
compiled file without its extension. That file is a module and exports the one binding that
the import names. -/
theorem imports_lead_to_exports (naming : Naming) (options : OutputOptions) (d : Document)
    (checked : Checked Api) (h : Api.ofDocument naming d = .ok checked)
    (hdir : IsPlain options.componentsDir) (hfile : IsPlain options.operationFile)
    (hextension : IsPlain options.extension) :
    let files := (checked.value.compile options).files
    ∀ f ∈ files, ∀ m, f.artifact = .module m → ∀ i ∈ m.imports,
      ∃ specifier, i.specifier = specifier ++ options.importExtension ∧
        ∃ f' ∈ files,
          f'.path = "/".intercalate (Path.resolve f.directory specifier) ++ "." ++
            options.extension ∧
          (∀ f'' ∈ files, f''.path = f'.path → f'' = f') ∧
          ∃ m', f'.artifact = .module m' ∧ m'.exports = [Identifier.ofName i.component] := by
  intro files f hf m hm i hi
  have hnamed := Api.named_ofDocument h
  obtain ⟨start, hstart, himports⟩ :=
    Api.starts_of_mem_files hnamed hdir hfile hextension hf hm
  obtain ⟨hkey, hspecifier⟩ := himports i hi
  obtain ⟨name, -, hsegment, f', hf', hfile'⟩ := Api.exists_compiled_component options hnamed hkey
  obtain ⟨-, -, m', hm', hexports, -⟩ := ComponentGenerator.module_of_fileOf? hnamed hfile'
  rw [ofName_eq_of_pathSegment_eq hsegment] at hexports
  refine ⟨_, hspecifier, f', hf', ?_, fun f'' hf'' heq => ?_, m', hm', hexports⟩
  · have hjoin (a b : String) : "/".intercalate [a, b] = a ++ "/" ++ b := rfl
    rw [hstart.resolve_specifier hdir, ComponentGenerator.path_of_fileOf? hnamed hfile', hsegment,
      hjoin]
    simp only [String.append_assoc]
  · have hnodup : (files.map (·.path)).Nodup := by
      rw [show files = _ from Api.files_compile _ _]
      exact (nodup_keepFirst [] _).1
    exact List.inj_on_of_nodup_map hnodup hf'' hf' heq

/-- `a/b` and `a_b` have one path segment, and only the module of `a/b` is kept. It exports the
binding that the module of `Pet` imports for `a_b`. -/
theorem imports_lead_to_exports_shared_segment :
    let pet : Schema := .inline { Keywords.ofType .object with
      properties := [("kind", .reference "#/components/schemas/a_b")] }
    let d : Document := ⟨"3.0.0", ⟨"Pets", "1"⟩, none, some
      ⟨.ofList [("a/b", .inline (.ofType .boolean)), ("a_b", .inline (.ofType .number)),
        ("Pet", pet)], .empty, .empty⟩⟩
    ∃ checked, Api.ofDocument .default d = .ok checked ∧
      ∃ f ∈ (checked.value.compile .default).files, ∃ m, f.artifact = .module m ∧
        ∃ i ∈ m.imports, i.component = "a_b" ∧ i.specifier = "./a_b" ∧
          ∃ f' ∈ (checked.value.compile .default).files, f'.path = "_components/a_b.ts" ∧
            ∃ m', f'.artifact = .module m' ∧ m'.exports = ["a_b"] := by
  intro pet d
  refine ⟨_, rfl, ?_⟩
  have hd : Api.ofDocument .default d = .ok _ := rfl
  have hnamed := Api.named_ofDocument hd
  have hpet : "Pet" ∈ (Api.componentsOf d).keys := by decide
  obtain ⟨name, hname, hsegment, f, hf, hfile⟩ :=
    Api.exists_compiled_component .default hnamed hpet
  obtain rfl : name = "Pet" := by
    have hkeys : (Api.componentsOf d).keys = ["a/b", "a_b", "Pet"] := rfl
    replace hname : name ∈ ["a/b", "a_b", "Pet"] := hkeys ▸ hname
    simp only [List.mem_cons, List.not_mem_nil, or_false] at hname
    rcases hname with rfl | rfl | rfl
    · exact absurd hsegment (by decide)
    · exact absurd hsegment (by decide)
    · rfl
  obtain ⟨hgroup, hfileName, m, hm, -, himports⟩ :=
    ComponentGenerator.module_of_fileOf? hnamed hfile
  have himport : "a_b" ∈ f.imports := by
    rw [ComponentGenerator.mem_imports_fileOf?_iff hfile]
    exact ⟨⟨⟨_, rfl, List.mem_singleton_self _⟩, by decide, by decide⟩, by decide⟩
  rw [GeneratedFile.imports, hm] at himport
  obtain ⟨i, hi, hcomponent⟩ := List.mem_map.mp himport
  have hspecifier : i.specifier = "./a_b" := by
    rw [(himports i hi).2, hcomponent]
    decide
  have hdirectory : f.directory = ["_components"] :=
    GeneratedFile.directory_eq hgroup (by decide) (hfileName ▸ by decide)
  obtain ⟨specifier, heq, f', hf', hpath, -, m', hm', hexports⟩ :=
    imports_lead_to_exports .default .default d _ hd (by decide) (by decide) (by decide) f hf m hm i
      hi
  have hplain : specifier = "./a_b" := by
    rw [← hspecifier, heq]
    exact String.append_empty.symm
  refine ⟨f, hf, m, hm, i, hi, hcomponent, hspecifier, f', hf', ?_, m', hm', ?_⟩
  · rw [hpath, hdirectory, hplain]
    decide
  · rw [hexports, hcomponent]
    decide

end OpenApiZod
