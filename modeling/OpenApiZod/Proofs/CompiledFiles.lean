import OpenApiZod.Proofs.FromClauses
import OpenApiZod.Proofs.PathNames

/-!
# The files of a compilation

Of several files with one path only the first is kept. Where the component directory and the
extension are plain names this concerns components alone: a component keeps its module unless its
path segment is that of an earlier one, and every operation and the index keep theirs
(`Api.files_of_isPlain`).

The index lists the modules without looking at the files. It leaves out components of one specifier,
and it works out the directories of operations again, but what it exports are the kept modules in
their order (`Api.index_exports`).
-/

namespace OpenApiZod

/-! ### Firsts of their keys -/

section FirstsBy

variable {α β : Type}

/-- The elements whose keys are not in `seen` and did not come before. -/
def firstsBy (key : α → String) (seen : List String) : List α → List α
  | [] => []
  | x :: rest =>
    if key x ∈ seen then firstsBy key seen rest
    else x :: firstsBy key (seen ++ [key x]) rest

/-- The files that are kept are the first ones with their paths. -/
theorem keepFirst_eq_firstsBy (seen : List String) (fs : List GeneratedFile) :
    (keepFirst seen fs).1 = firstsBy (·.path) seen fs := by
  induction fs generalizing seen with
  | nil => rfl
  | cons f rest ih =>
      rw [keepFirst, firstsBy]
      split
      · exact ih seen
      · exact congrArg (f :: ·) (ih _)

/-- Nothing is added. -/
theorem mem_of_mem_firstsBy {key : α → String} {seen : List String} {xs : List α} {x : α}
    (h : x ∈ firstsBy key seen xs) : x ∈ xs := by
  induction xs generalizing seen with
  | nil => exact h
  | cons y rest ih =>
      rw [firstsBy] at h
      split at h
      · exact List.mem_cons_of_mem _ (ih h)
      · rcases List.mem_cons.mp h with rfl | h
        · exact List.mem_cons_self
        · exact List.mem_cons_of_mem _ (ih h)

/-- What has come before in the first list is left out of the second. -/
theorem firstsBy_append (key : α → String) (seen : List String) (xs ys : List α) :
    firstsBy key seen (xs ++ ys) =
      firstsBy key seen xs ++ firstsBy key (seen ++ (firstsBy key seen xs).map key) ys := by
  induction xs generalizing seen with
  | nil => rw [List.nil_append, firstsBy, List.map_nil, List.append_nil, List.nil_append]
  | cons x rest ih =>
      rw [List.cons_append, firstsBy, firstsBy]
      split
      · exact ih seen
      · rw [ih, List.map_cons, List.cons_append, List.append_assoc, List.singleton_append]

/-- Nothing is left out where all keys are new. -/
theorem firstsBy_of_nodup {key : α → String} {seen : List String} {xs : List α}
    (h : (xs.map key).Nodup) (hseen : ∀ x ∈ xs, key x ∉ seen) : firstsBy key seen xs = xs := by
  induction xs generalizing seen with
  | nil => rfl
  | cons x rest ih =>
      rw [List.map_cons, List.nodup_cons] at h
      rw [List.forall_mem_cons] at hseen
      rw [firstsBy, if_neg hseen.1, ih h.2]
      intro y hy hmem
      rw [List.mem_append, List.mem_singleton] at hmem
      rcases hmem with hmem | heq
      · exact hseen.2 y hy hmem
      · exact h.1 (heq ▸ List.mem_map_of_mem hy)

/-- Elements may be changed first, if their keys are taken along. -/
theorem firstsBy_map (f : α → β) (key : β → String) (seen : List String) (xs : List α) :
    firstsBy key seen (xs.map f) = (firstsBy (fun x => key (f x)) seen xs).map f := by
  induction xs generalizing seen with
  | nil => rfl
  | cons x rest ih =>
      rw [List.map_cons, firstsBy, firstsBy]
      split
      · exact ih seen
      · rw [ih, List.map_cons]

/-- Keys that are changed alike, those seen before included, leave out the same elements. -/
theorem firstsBy_map_seen {key key' : α → String} {f : String → String} (hf : Function.Injective f)
    {seen : List String} {xs : List α} (h : ∀ x ∈ xs, key x = f (key' x)) :
    firstsBy key (seen.map f) xs = firstsBy key' seen xs := by
  induction xs generalizing seen with
  | nil => rfl
  | cons x rest ih =>
      rw [List.forall_mem_cons] at h
      rw [firstsBy, firstsBy, h.1, ih h.2]
      have hsnoc : seen.map f ++ [f (key' x)] = (seen ++ [key' x]).map f := by
        rw [List.map_append, List.map_singleton]
      rw [hsnoc, ih h.2]
      exact if_congr (List.mem_map_of_injective hf) rfl rfl

/-- Keys may be told apart by what is made of them. -/
theorem firstsBy_congr {key key' : α → String} {f : String → String} (hf : Function.Injective f)
    {xs : List α} (h : ∀ x ∈ xs, key x = f (key' x)) :
    firstsBy key [] xs = firstsBy key' [] xs := by
  rw [← firstsBy_map_seen hf h, List.map_nil]

/-- The keys of what is left are added to those seen before. -/
theorem extendNew_map (key : α → String) (seen : List String) (xs : List α) :
    extendNew seen (xs.map key) = seen ++ (firstsBy key seen xs).map key := by
  induction xs generalizing seen with
  | nil => exact (List.append_nil seen).symm
  | cons x rest ih =>
      have hstep : extendNew seen ((x :: rest).map key) =
          extendNew (appendNew seen (key x)) (rest.map key) := rfl
      rw [hstep, ih, firstsBy, appendNew]
      split
      · rfl
      · rw [List.map_cons, List.append_assoc, List.singleton_append]

/-- The keys of what is left are the distinct keys. -/
theorem map_firstsBy (key : α → String) (xs : List α) :
    (firstsBy key [] xs).map key = distinct (xs.map key) :=
  (extendNew_map key [] xs).symm

end FirstsBy

/-! ### Paths of files -/

section Paths

variable {api : Api} {options : OutputOptions}

/-- The path of a component's module, given the path segment of its name. -/
def componentPath (options : OutputOptions) (segment : String) : String :=
  options.componentsDir ++ "/" ++ (segment ++ "." ++ options.extension)

/-- Different path segments give different paths. -/
theorem componentPath_injective (options : OutputOptions) :
    Function.Injective (componentPath options) := by
  intro a b h
  simpa only [componentPath, String.append_right_inj, String.append_left_inj] using h

/-- The path of an operation's module, given its directory. -/
def operationPath (options : OutputOptions) (group : String) : String :=
  group ++ "/" ++ (options.operationFile ++ "." ++ options.extension)

/-- The modules of components, as the table lists them. -/
def Api.componentFiles (api : Api) (options : OutputOptions) : List GeneratedFile :=
  ((ComponentGenerator.ofComponents api.components options).generateTable .start).1

/-- The index, if the options ask for it. -/
def Api.indexFiles (api : Api) (options : OutputOptions) : List GeneratedFile :=
  if options.index then [Index.file api options (OperationModule.groups api options).1] else []

/-- Each component has its file. -/
theorem Api.map_some_componentFiles (api : Api) (options : OutputOptions) :
    (api.componentFiles options).map some =
      api.components.keys.map (ComponentGenerator.fileOf? api.components options) :=
  ComponentGenerator.generateTable_spec _ _ .start ComponentGenerator.Valid.start

/-- The modules of components are their files, one after the other. -/
theorem Api.componentFiles_eq (api : Api) (options : OutputOptions) :
    api.componentFiles options =
      api.components.keys.filterMap (ComponentGenerator.fileOf? api.components options) := by
  calc api.componentFiles options
      = ((api.componentFiles options).map some).filterMap id := by
        rw [List.filterMap_map, Function.id_comp, List.filterMap_some]
    _ = _ := by rw [map_some_componentFiles, List.filterMap_map, Function.id_comp]

/-- The files of a compilation, from the files of single components. -/
theorem Api.files_eq_firstsBy (api : Api) (options : OutputOptions) :
    (api.compile options).files = firstsBy (·.path) []
      (api.components.keys.filterMap (ComponentGenerator.fileOf? api.components options) ++
        (OperationModule.files api options).1 ++ api.indexFiles options) := by
  rw [files_compile, keepFirst_eq_firstsBy, ← componentFiles_eq]
  rfl

/-- No two compiled files have one path. -/
theorem Api.nodup_paths_files (api : Api) (options : OutputOptions) :
    ((api.compile options).files.map (·.path)).Nodup := by
  rw [files_compile]
  exact (nodup_keepFirst [] _).1

/-- Of the components with one path segment the first keeps its module. -/
theorem Api.firstsBy_componentFiles (hnamed : Named api.components) :
    (firstsBy (·.path) [] (api.componentFiles options)).map some =
      (firstsBy pathSegment [] api.components.keys).map
        (ComponentGenerator.fileOf? api.components options) := by
  let pathOf (f : Option GeneratedFile) : String := (f.map (·.path)).getD ""
  have hpath : ∀ name ∈ api.components.keys,
      pathOf (ComponentGenerator.fileOf? api.components options name) =
        componentPath options (pathSegment name) := by
    intro name hname
    have hsome : (ComponentGenerator.fileOf? api.components options name).isSome = true :=
      ComponentGenerator.isSome_fileOf?_iff.mpr hname
    obtain ⟨f, hf⟩ := Option.isSome_iff_exists.mp hsome
    rw [hf]
    exact ComponentGenerator.path_of_fileOf? hnamed hf
  calc (firstsBy (·.path) [] (api.componentFiles options)).map some
      = firstsBy pathOf [] ((api.componentFiles options).map some) :=
        (firstsBy_map some pathOf _ _).symm
    _ = (firstsBy (fun name => pathOf (ComponentGenerator.fileOf? api.components options name)) []
          api.components.keys).map (ComponentGenerator.fileOf? api.components options) := by
        rw [map_some_componentFiles, firstsBy_map]
    _ = _ := by rw [firstsBy_congr (componentPath_injective options) hpath]

/-- The paths of component modules are made of the components' path segments. -/
theorem ComponentGenerator.paths_of_map_some (hnamed : Named api.components)
    {fs : List GeneratedFile} {names : List String}
    (h : fs.map some = names.map (fileOf? api.components options)) :
    fs.map (·.path) = names.map fun name => componentPath options (pathSegment name) := by
  induction names generalizing fs with
  | nil =>
      obtain rfl := List.map_eq_nil_iff.mp h
      rfl
  | cons name rest ih =>
      cases fs with
      | nil => exact nomatch h
      | cons f fs =>
          rw [List.map_cons, List.map_cons, List.cons_eq_cons] at h
          rw [List.map_cons, List.map_cons, ih h.2, path_of_fileOf? hnamed h.1.symm, componentPath]

/-- The directories of operations are fresh names made of the path segments of their ids. -/
theorem OperationModule.groupsFrom_eq_freshNames (taken ids : List String) :
    (groupsFrom taken ids).1 = freshNames taken (ids.map pathSegment) := by
  induction ids generalizing taken with
  | nil => rfl
  | cons id rest ih =>
      rw [groupsFrom, List.map_cons, freshNames, ← ih]

/-- The directories of operations differ from each other and from those that are taken. -/
theorem OperationModule.nodup_groupsFrom (taken ids : List String) :
    (groupsFrom taken ids).1.Nodup ∧ ∀ group ∈ (groupsFrom taken ids).1, group ∉ taken := by
  rw [groupsFrom_eq_freshNames]
  exact nodup_freshNames taken _

/-- The paths of operations' modules are made of their directories. -/
theorem OperationModule.paths_files (api : Api) (options : OutputOptions) :
    (files api options).1.map (·.path) = (groups api options).1.map (operationPath options) := by
  have hlength : (groups api options).1.length ≤ api.operations.values.length := by
    rw [groups, length_groupsFrom, List.length_map]
  have hfiles : (files api options).1 =
      List.zipWith (file api.components options) api.operations.values (groups api options).1 := rfl
  rw [hfiles, ← List.map_uncurry_zip_eq_zipWith, List.map_map]
  calc (api.operations.values.zip (groups api options).1).map (operationPath options ∘ Prod.snd)
      = ((api.operations.values.zip (groups api options).1).map Prod.snd).map
          (operationPath options) := List.map_map.symm
    _ = (groups api options).1.map (operationPath options) := by rw [List.map_snd_zip hlength]

/-- Each operation has a path of its own. -/
theorem OperationModule.nodup_paths_files (api : Api) (options : OutputOptions) :
    ((files api options).1.map (·.path)).Nodup := by
  have hinjective : Function.Injective (operationPath options) := by
    intro a b h
    simpa only [operationPath, String.append_left_inj] using h
  rw [paths_files]
  exact (nodup_groupsFrom _ _).1.map hinjective

/-- The first part of such a path is the directory. -/
theorem parts_operationPath {group : String}
    (h : group ∈ (OperationModule.groups api options).1) :
    Path.parts (operationPath options group) =
      group :: Path.parts (options.operationFile ++ "." ++ options.extension) := by
  rw [operationPath, Path.parts_slash, Path.parts_of_isPlain (isPlain_of_mem_groups h)]
  rfl

/-- The paths of component modules. -/
theorem Api.exists_path_of_component {f : GeneratedFile} (h : f ∈ api.componentFiles options) :
    ∃ name, f.path = componentPath options (pathSegment name) := by
  obtain ⟨name, -, hfile⟩ := ComponentGenerator.mem_generateTable_iff.mp h
  obtain ⟨c, -, rfl⟩ := ComponentGenerator.eq_file_of_fileOf? hfile
  exact ⟨c.name, rfl⟩

/-- The paths of operations' modules. -/
theorem OperationModule.exists_path {f : GeneratedFile} (h : f ∈ (files api options).1) :
    ∃ group ∈ (groups api options).1, f.path = operationPath options group := by
  obtain ⟨o, -, group, hgroup, rfl⟩ := exists_operation_of_mem_files h
  exact ⟨group, hgroup, rfl⟩

/-- A compiled file is an operation's module, a component's or the index. -/
theorem Api.mem_files {f : GeneratedFile} (h : f ∈ (api.compile options).files) :
    f ∈ (OperationModule.files api options).1 ∨
      f ∈ api.componentFiles options ++ api.indexFiles options := by
  rw [files_compile] at h
  have hwritten : f ∈ api.componentFiles options ++ (OperationModule.files api options).1 ++
      api.indexFiles options := mem_of_mem_keepFirst h
  simp only [List.mem_append] at hwritten ⊢
  rcases hwritten with (h | h) | h
  · exact Or.inr (Or.inl h)
  · exact Or.inl h
  · exact Or.inr (Or.inr h)

/-- Where the component directory is a plain name, no operation's path is a component's. -/
theorem OperationModule.path_ne_componentPath (hdir : IsPlain options.componentsDir)
    {f : GeneratedFile} (hf : f ∈ (files api options).1) (segment : String) :
    f.path ≠ componentPath options segment := by
  obtain ⟨group, hgroup, hpath⟩ := exists_path hf
  intro hsame
  have hparts := parts_operationPath hgroup
  rw [← hpath, hsame, componentPath, Path.parts_slash, Path.parts_of_isPlain hdir] at hparts
  have hhead : options.componentsDir = group := (List.cons_eq_cons.mp hparts).1
  exact (nodup_groupsFrom _ _).2 group hgroup (hhead ▸ List.mem_cons_self)

/-- All modules lie in directories. -/
theorem Api.slash_mem_path {f : GeneratedFile}
    (h : f ∈ api.componentFiles options ++ (OperationModule.files api options).1) :
    '/' ∈ f.path.toList := by
  rcases List.mem_append.mp h with h | h
  · obtain ⟨name, hpath⟩ := exists_path_of_component h
    simp [hpath, componentPath]
  · obtain ⟨group, -, hpath⟩ := OperationModule.exists_path h
    simp [hpath, operationPath]

/-- The index has its own name and stands in no directory. -/
theorem Api.path_of_mem_indexFiles {f : GeneratedFile} (h : f ∈ api.indexFiles options) :
    f.path = "index." ++ options.extension := by
  rw [indexFiles] at h
  split at h
  · rw [List.mem_singleton.mp h]
    rfl
  · exact absurd h List.not_mem_nil

/-- There is at most one index. -/
theorem Api.nodup_paths_indexFiles (api : Api) (options : OutputOptions) :
    ((api.indexFiles options).map (·.path)).Nodup := by
  rw [indexFiles]
  split
  · exact List.nodup_singleton _
  · exact List.nodup_nil

/-- **What is kept.** With plain names for the component directory and the extension, compilation
drops nothing but modules of components whose path is that of an earlier one. -/
theorem Api.files_of_isPlain (api : Api) (hdir : IsPlain options.componentsDir)
    (hextension : IsPlain options.extension) :
    (api.compile options).files =
      firstsBy (·.path) [] (api.componentFiles options) ++ (OperationModule.files api options).1 ++
        api.indexFiles options := by
  have hoperations : ∀ f ∈ (OperationModule.files api options).1,
      f.path ∉ [] ++ (firstsBy (·.path) [] (api.componentFiles options)).map (·.path) := by
    intro f hf hmem
    obtain ⟨g, hg, heq⟩ := List.mem_map.mp hmem
    obtain ⟨name, hpath⟩ := exists_path_of_component (mem_of_mem_firstsBy hg)
    exact OperationModule.path_ne_componentPath hdir hf (pathSegment name) (heq.symm.trans hpath)
  have hindex : ∀ f ∈ api.indexFiles options, f.path ∉ [] ++ (firstsBy (·.path) []
      (api.componentFiles options ++ (OperationModule.files api options).1)).map (·.path) := by
    intro f hf hmem
    obtain ⟨g, hg, heq⟩ := List.mem_map.mp hmem
    have hslash := Api.slash_mem_path (mem_of_mem_firstsBy hg)
    rw [heq, path_of_mem_indexFiles hf, String.toList_append, List.mem_append] at hslash
    rcases hslash with hslash | hslash
    · revert hslash
      decide
    · exact hextension.1 hslash
  have hwritten : api.written options =
      api.componentFiles options ++ (OperationModule.files api options).1 ++
        api.indexFiles options := rfl
  rw [files_compile, keepFirst_eq_firstsBy, hwritten, firstsBy_append,
    firstsBy_of_nodup (nodup_paths_indexFiles api options) hindex, firstsBy_append,
    firstsBy_of_nodup (OperationModule.nodup_paths_files api options) hoperations]

/-! ### The index -/

/-- The paths of kept modules without the dot and the extension, components first. -/
def Api.stems (api : Api) (options : OutputOptions) : List String :=
  (firstsBy pathSegment [] api.components.keys).map
      (fun name => options.componentsDir ++ "/" ++ pathSegment name) ++
    (OperationModule.groups api options).1.map (· ++ "/" ++ options.operationFile)

/-- The kept modules are those that the stems name. -/
theorem Api.paths_eq_stems (options : OutputOptions) (hnamed : Named api.components) :
    (firstsBy (·.path) [] (api.componentFiles options) ++
        (OperationModule.files api options).1).map (·.path) =
      (api.stems options).map (· ++ "." ++ options.extension) := by
  rw [List.map_append, ComponentGenerator.paths_of_map_some hnamed (firstsBy_componentFiles hnamed),
    OperationModule.paths_files, stems, List.map_append, List.map_map, List.map_map]
  congr 1
  · refine List.map_congr_left fun name _ => ?_
    simp only [Function.comp_apply, componentPath, String.append_assoc]
  · refine List.map_congr_left fun group _ => ?_
    simp only [Function.comp_apply, operationPath, String.append_assoc]

/-- Of the components with one path segment the index exports the first. -/
theorem Index.flat_eq_firstsBy (api : Api) (options : OutputOptions) (groups : List String) :
    (Index.ofApi api options groups).flat =
      (firstsBy pathSegment [] api.components.keys).map fun name =>
        componentSpecifier ("./" ++ options.componentsDir) name options := by
  let specifierOf (name : String) : String :=
    componentSpecifier ("./" ++ options.componentsDir) name options
  have hinjective : Function.Injective fun segment =>
      "./" ++ options.componentsDir ++ "/" ++ segment ++ options.importExtension := by
    intro a b h
    simpa only [String.append_right_inj, String.append_left_inj] using h
  have hfirsts : firstsBy specifierOf [] api.components.keys =
      firstsBy pathSegment [] api.components.keys := firstsBy_congr hinjective fun _ _ => rfl
  show distinct (api.components.keys.map specifierOf) = _
  rw [← map_firstsBy, hfirsts]

/-- Each operation's directory has a namespace. -/
theorem Index.length_namespaces (api : Api) (options : OutputOptions) :
    (namespacesFrom [] (api.operations.values.map (·.operationId))).length =
      (OperationModule.groups api options).1.length := by
  rw [OperationModule.groups, OperationModule.length_groupsFrom, length_namespacesFrom]

/-- The specifiers of an index are made of the stems. -/
theorem Index.specifiers_eq_stems (api : Api) (options : OutputOptions) :
    (Index.ofApi api options (OperationModule.groups api options).1).clauses.map (·.specifier) =
      (api.stems options).map fun stem => "./" ++ stem ++ options.importExtension := by
  have hclauses (i : Index) :
      i.clauses.map (·.specifier) = i.flat ++ i.namespaces.map Prod.snd := by
    rw [clauses, List.map_append, List.map_map, List.map_map]
    exact congrArg₂ (· ++ ·) (List.map_id i.flat) rfl
  rw [hclauses, flat_eq_firstsBy, Api.stems, List.map_append, List.map_map, List.map_map]
  refine congrArg₂ (· ++ ·) ?_ ?_
  · refine List.map_congr_left fun name _ => ?_
    simp only [Function.comp_apply, componentSpecifier, String.append_assoc]
  · rw [ofApi, List.map_snd_zip (by rw [List.length_map, length_namespaces])]
    refine List.map_congr_left fun group _ => ?_
    simp only [Function.comp_apply, String.append_assoc]

/-- **The index exports the modules.** Where the component directory and the extension are plain
names, the files of an interface are modules and, at the end, an index. The index is nothing but
clauses that export, and their specifiers are the paths of the modules in the same order, each once,
with the extension replaced. -/
theorem Api.index_exports (naming : Naming) (options : OutputOptions) (d : Document)
    (checked : Checked Api) (h : Api.ofDocument naming d = .ok checked)
    (hindex : options.index = true) (hdir : IsPlain options.componentsDir)
    (hextension : IsPlain options.extension) :
    let api := checked.value
    let index := Index.ofApi api options (OperationModule.groups api options).1
    ∃ modules barrel, (api.compile options).files = modules ++ [barrel] ∧
      (∀ f ∈ modules, ∃ m, f.artifact = .module m) ∧
      barrel.path = "index." ++ options.extension ∧ barrel.content = clausesText index.clauses ∧
      (index.clauses.map (·.specifier)).Nodup ∧
      ∃ stems : List String, stems.Nodup ∧
        modules.map (·.path) = stems.map (· ++ "." ++ options.extension) ∧
        index.clauses.map (·.specifier) =
          stems.map fun stem => "./" ++ stem ++ options.importExtension := by
  intro api index
  have hnamed := Api.named_ofDocument h
  have hfiles := Api.files_of_isPlain api hdir hextension
  rw [Api.indexFiles, if_pos hindex] at hfiles
  have hpaths := Api.paths_eq_stems options hnamed
  have hspecifiers := Index.specifiers_eq_stems api options
  have hstems : (api.stems options).Nodup := by
    have hnodup := Api.nodup_paths_files api options
    rw [hfiles, List.map_append, hpaths] at hnodup
    exact hnodup.of_append_left.of_map _
  have hinjective : Function.Injective fun stem => "./" ++ stem ++ options.importExtension := by
    intro a b hab
    simpa only [String.append_right_inj, String.append_left_inj] using hab
  refine ⟨_, _, hfiles, fun f hf => ?_, rfl, Index.render_eq _, ?_, _, hstems, hpaths, hspecifiers⟩
  · rcases List.mem_append.mp hf with hf | hf
    · obtain ⟨name, -, hfile⟩ :=
        ComponentGenerator.mem_generateTable_iff.mp (mem_of_mem_firstsBy hf)
      obtain ⟨-, -, m, hm, -⟩ := ComponentGenerator.module_of_fileOf? hnamed hfile
      exact ⟨m, hm⟩
    · obtain ⟨o, -, group, -, rfl⟩ := OperationModule.exists_operation_of_mem_files hf
      exact ⟨_, rfl⟩
  · rw [hspecifiers]
    exact hstems.map hinjective

/-- Two components share a path segment, two operations do, and a third one has the name of the
component directory. -/
theorem Api.index_exports_clashes :
    let boolean : Schema := .inline (.ofType .boolean)
    let operation (id : String) : Operation := ⟨some id, none, none, .empty⟩
    let d : Document := ⟨"3.0.0", ⟨"Pets", "1"⟩, some (.ofList
      [("/pets", ⟨none, [(.get, operation "x/y"), (.post, operation "x_y"),
        (.put, operation "_components")]⟩)]),
      some ⟨.ofList [("a/b", boolean), ("a_b", boolean)], .empty, .empty⟩⟩
    ∃ checked, Api.ofDocument .default d = .ok checked ∧
      ∃ modules barrel, (checked.value.compile .default).files = modules ++ [barrel] ∧
        modules.map (·.path) = ["_components/a_b.ts", "x_y/schema.ts", "x_y_/schema.ts",
          "_components_/schema.ts"] := by
  intro boolean operation d
  refine ⟨_, rfl, ?_⟩
  obtain ⟨modules, barrel, hfiles, -, -, -, -, stems, -, hpaths, hspecifiers⟩ :=
    Api.index_exports .default .default d _ rfl rfl (by decide) (by decide)
  have hstems : stems =
      ["_components/a_b", "x_y/schema", "x_y_/schema", "_components_/schema"] := by
    have hinjective : Function.Injective fun stem =>
        "./" ++ stem ++ OutputOptions.default.importExtension := by
      intro a b hab
      simpa only [String.append_right_inj, String.append_left_inj] using hab
    refine List.map_injective_iff.mpr hinjective (hspecifiers.symm.trans ?_)
    decide
  refine ⟨modules, barrel, hfiles, ?_⟩
  rw [hpaths, hstems]
  decide

end Paths

end OpenApiZod
