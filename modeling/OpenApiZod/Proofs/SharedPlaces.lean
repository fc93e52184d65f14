import OpenApiZod.Proofs.CompiledFiles
import OpenApiZod.Proofs.Writing

/-!
# Files that share a place

Compilation tells files apart by their paths as texts, but a path is read part by part, and parts
that stay where they are make different texts lead to one place. If a module is written to the place
of another file, exactly one of the two is an operation's module (`Api.own_content_iff`): its
directory is chosen to differ from the component directory as it is spelled, not from where it
leads.

Where the options spell neither the component directory nor the names of operation modules with
parts that stay, each file has a place of its own.
-/

namespace OpenApiZod

namespace Path

/-! ### Names and extensions -/

/-- A text without the separator goes before the first piece. -/
theorem split_append_of_not_mem {separator : Char} {cs : List Char} (h : separator ∉ cs)
    (ds : List Char) :
    split separator (cs ++ ds) = (split separator ds).modifyHead (cs ++ ·) := by
  induction cs with
  | nil =>
      cases hsplit : split separator ds <;> simp [hsplit]
  | cons c cs ih =>
      rw [List.mem_cons, not_or] at h
      rw [List.cons_append, split, if_neg (Ne.symm h.1), ih h.2]
      cases hsplit : split separator ds with
      | nil => exact absurd hsplit (split_ne_nil separator ds)
      | cons piece rest => rfl

/-- What comes before the first slash goes into the first part. -/
theorem exists_parts_append (b : String) :
    ∃ first rest, ∀ a : String, '/' ∉ a.toList → parts (a ++ b) = (a ++ first) :: rest := by
  cases hsplit : split '/' b.toList with
  | nil => exact absurd hsplit (split_ne_nil '/' b.toList)
  | cons first rest =>
      refine ⟨.ofList first, rest.map String.ofList, fun a ha => ?_⟩
      rw [parts, String.toList_append, split_append_of_not_mem ha, hsplit, List.modifyHead_cons,
        List.map_cons, String.ofList_append, String.ofList_toList]

end Path

/-! ### Places of generated files -/

section Places

variable {api : Api} {options : OutputOptions}

/-- A plain name with an extension, whatever that is, leads down by a name that ends in the same way
for all of them, and then by the same names. -/
theorem exists_names_extension (extension : String) :
    ∃ first rest, ∀ name, IsPlain name →
      Path.parts (name ++ "." ++ extension) = (name ++ first) :: rest ∧
        Path.names (name ++ "." ++ extension) =
          (name ++ first) :: rest.filter (! Path.isStay ·) := by
  obtain ⟨first, rest, hparts⟩ := Path.exists_parts_append ("." ++ extension)
  refine ⟨first, rest, fun name hname => ?_⟩
  have hextended : Path.parts (name ++ "." ++ extension) = (name ++ first) :: rest := by
    rw [String.append_assoc, hparts name hname.1]
  refine ⟨hextended, ?_⟩
  rw [Path.names, hextended, List.filter_cons_of_pos]
  rw [Path.isStay_append hname.2]
  rfl

/-- No file of components, and no index, is an operation module. -/
theorem OperationModule.not_mem_files {f : GeneratedFile}
    (h : f ∈ api.componentFiles options ++ api.indexFiles options) : f ∉ (files api options).1 := by
  intro hmem
  obtain ⟨o, -, group, -, rfl⟩ := exists_operation_of_mem_files hmem
  rcases List.mem_append.mp h with h | h
  · obtain ⟨name, -, hfile⟩ := ComponentGenerator.mem_generateTable_iff.mp h
    obtain ⟨c, -, heq⟩ := ComponentGenerator.eq_file_of_fileOf? hfile
    have hmodule := Artifact.module.inj (congrArg GeneratedFile.artifact heq)
    cases congrArg Module.layout hmodule
  · rw [Api.indexFiles] at h
    split at h
    · cases congrArg GeneratedFile.artifact (List.mem_singleton.mp h)
    · exact List.not_mem_nil h

/-- A path that goes down does not start with a directory that is made of parts that stay. -/
theorem names_componentsDir_ne_nil {segment : String}
    (h : Path.isDescending (componentPath options segment) = true) :
    Path.names options.componentsDir ≠ [] := by
  have hne : componentPath options segment ≠ "" := by
    intro hempty
    have hslash : '/' ∈ (componentPath options segment).toList := by simp [componentPath]
    rw [hempty] at hslash
    exact List.not_mem_nil hslash
  obtain ⟨name, rest, hparts, hname⟩ := Path.exists_name_of_isDescending h hne
  rw [componentPath, Path.parts_slash] at hparts
  rw [Path.names]
  cases hdir : Path.parts options.componentsDir with
  | nil => exact absurd hdir (Path.parts_ne_nil _)
  | cons first others =>
      rw [hdir, List.cons_append] at hparts
      obtain rfl := (List.cons_eq_cons.mp hparts).1
      rw [List.filter_cons_of_pos (by rw [hname]; rfl)]
      exact List.cons_ne_nil _ _

/-- Modules of components and the index have places of their own. -/
theorem Api.path_eq_of_names_eq {f g : GeneratedFile}
    (hf : f ∈ api.componentFiles options ++ api.indexFiles options)
    (hg : g ∈ api.componentFiles options ++ api.indexFiles options)
    (hdown : Path.isDescending f.path = true) (hdown' : Path.isDescending g.path = true)
    (h : Path.names f.path = Path.names g.path) : f.path = g.path := by
  obtain ⟨first, rest, hnames⟩ := exists_names_extension options.extension
  have hcomponent (name : String) : Path.names (componentPath options (pathSegment name)) =
      Path.names options.componentsDir ++
        (pathSegment name ++ first) :: rest.filter (! Path.isStay ·) := by
    rw [componentPath, Path.names_slash, (hnames _ (isPlain_pathSegment name)).2]
  have hindex : Path.names ("index." ++ options.extension) =
      ("index" ++ first) :: rest.filter (! Path.isStay ·) := (hnames "index" (by decide)).2
  -- the names of an index are too few to be those of a component
  have hlonger (name : String)
      (hdown : Path.isDescending (componentPath options (pathSegment name)) = true) :
      Path.names (componentPath options (pathSegment name)) ≠
        Path.names ("index." ++ options.extension) := by
    intro heq
    have hpositive := List.length_pos_iff.mpr (names_componentsDir_ne_nil hdown)
    have hlength := congrArg List.length heq
    rw [hcomponent, hindex, List.length_append, List.length_cons, List.length_cons] at hlength
    omega
  rcases List.mem_append.mp hf with hf | hf <;> rcases List.mem_append.mp hg with hg | hg
  · obtain ⟨name, hpath⟩ := exists_path_of_component hf
    obtain ⟨name', hpath'⟩ := exists_path_of_component hg
    rw [hpath, hpath', hcomponent, hcomponent, List.append_cancel_left_eq, List.cons_eq_cons,
      String.append_left_inj] at h
    rw [hpath, hpath', h.1]
  · obtain ⟨name, hpath⟩ := exists_path_of_component hf
    rw [hpath] at h hdown
    rw [path_of_mem_indexFiles hg] at h
    exact absurd h (hlonger name hdown)
  · obtain ⟨name, hpath⟩ := exists_path_of_component hg
    rw [hpath] at h hdown'
    rw [path_of_mem_indexFiles hf] at h
    exact absurd h.symm (hlonger name hdown')
  · rw [path_of_mem_indexFiles hf, path_of_mem_indexFiles hg]

/-- Modules of operations have places of their own. -/
theorem OperationModule.path_eq_of_names_eq {f g : GeneratedFile} (hf : f ∈ (files api options).1)
    (hg : g ∈ (files api options).1) (h : Path.names f.path = Path.names g.path) :
    f.path = g.path := by
  obtain ⟨group, hgroup, hpath⟩ := exists_path hf
  obtain ⟨group', hgroup', hpath'⟩ := exists_path hg
  rw [hpath, hpath', operationPath, operationPath, Path.names_slash, Path.names_slash,
    Path.names_of_isPlain (isPlain_of_mem_groups hgroup),
    Path.names_of_isPlain (isPlain_of_mem_groups hgroup')] at h
  obtain rfl : group = group' := (List.cons_eq_cons.mp h).1
  rw [hpath, hpath']

/-- Parts that stay get into the paths of generated files from the options only. -/
theorem Api.isStay_of_mem_parts
    (hoptions : ∀ path ∈ [options.componentsDir, options.operationFile ++ "." ++ options.extension,
      "index." ++ options.extension], ∀ part ∈ Path.parts path, Path.isStay part = false)
    {f : GeneratedFile} (hf : f ∈ (api.compile options).files) :
    ∀ part ∈ Path.parts f.path, Path.isStay part = false := by
  simp only [List.forall_mem_cons] at hoptions
  obtain ⟨hdir, hoperation, hindex, -⟩ := hoptions
  rcases mem_files hf with hf | hf
  · obtain ⟨group, hgroup, hpath⟩ := OperationModule.exists_path hf
    rw [hpath, parts_operationPath hgroup]
    exact List.forall_mem_cons.mpr
      ⟨Path.isStay_of_isPlain (isPlain_of_mem_groups hgroup), hoperation⟩
  · rcases List.mem_append.mp hf with hf | hf
    · obtain ⟨name, hpath⟩ := exists_path_of_component hf
      obtain ⟨first, rest, hnames⟩ := exists_names_extension options.extension
      have hparts : Path.parts ("index." ++ options.extension) = ("index" ++ first) :: rest :=
        (hnames "index" (by decide)).1
      rw [hparts, List.forall_mem_cons] at hindex
      have hplain := isPlain_pathSegment name
      rw [hpath, componentPath, Path.parts_slash, (hnames _ hplain).1, List.forall_mem_append,
        List.forall_mem_cons]
      exact ⟨hdir, Path.isStay_append hplain.2 first, hindex.2⟩
    · rw [path_of_mem_indexFiles hf]
      exact hindex

/-! ### Places after writing -/

/-- A generated file as it is written. -/
def GeneratedFile.output (f : GeneratedFile) : Output := ⟨f.path, f.content⟩

/-- A file is written below the base, under the names of its path. -/
theorem GeneratedFile.place_output {f : GeneratedFile} (h : Path.isDescending f.path = true)
    (here : Location) (base : String) :
    f.output.place here base = Path.resolve here base ++ Path.names f.path :=
  Path.resolve_join h here base

/-- Files whose paths have no parts that stay have places of their own. -/
theorem Api.eq_of_place_eq {f g : GeneratedFile} (hf : f ∈ (api.compile options).files)
    (hg : g ∈ (api.compile options).files)
    (hdown : ∀ f ∈ (api.compile options).files, Path.isDescending f.path = true)
    (hstay : ∀ f ∈ (api.compile options).files, ∀ part ∈ Path.parts f.path,
      Path.isStay part = false)
    {here : Location} {base : String} (h : f.output.place here base = g.output.place here base) :
    f = g := by
  rw [GeneratedFile.place_output (hdown f hf), GeneratedFile.place_output (hdown g hg)] at h
  refine List.inj_on_of_nodup_map (nodup_paths_files api options) hf hg ?_
  exact Path.eq_of_names_eq (hstay f hf) (hstay g hg) (List.append_cancel_left h)

/-- **Files and their places.** After the files of an interface have been written, all stand where
their paths lead if and only if files that share a place have the same content. If two files share a
place, exactly one of them is an operation's module. They share none where neither the component
directory nor the name of operation modules or of the index has a part that stays where it is. -/
theorem Api.own_content_iff (api : Api) (options : OutputOptions) (base : String)
    (fs fs' : FileSystem)
    (h : Output.writeAllOn base ((api.compile options).files.map GeneratedFile.output) fs =
      (none, fs')) :
    let files := (api.compile options).files
    let place (f : GeneratedFile) := f.output.place fs.workingDirectory base
    ((∀ f ∈ files, fs'.content? (place f) = some f.content) ↔
        ∀ f ∈ files, ∀ g ∈ files, place f = place g → f.content = g.content) ∧
      (∀ f ∈ files, ∀ g ∈ files, f ≠ g → place f = place g →
        Xor (f ∈ (OperationModule.files api options).1)
          (g ∈ (OperationModule.files api options).1)) ∧
      ((∀ path ∈ [options.componentsDir, options.operationFile ++ "." ++ options.extension,
          "index." ++ options.extension], ∀ part ∈ Path.parts path, Path.isStay part = false) →
        ∀ f ∈ files, ∀ g ∈ files, place f = place g → f = g) := by
  intro files place
  have hdown : ∀ f ∈ files, Path.isDescending f.path = true := fun f hf =>
    (Output.writeAll_written h).1 f.output (List.mem_map_of_mem hf)
  refine ⟨?_, fun f hf g hg hne heq => ?_, fun hoptions f hf g hg heq => ?_⟩
  · have hiff := Output.writeAll_own_iff h
    simp only [List.forall_mem_map] at hiff
    exact hiff
  · have hpath : f.path ≠ g.path := fun hpath =>
      hne (List.inj_on_of_nodup_map (nodup_paths_files api options) hf hg hpath)
    simp only [place, GeneratedFile.place_output (hdown f hf),
      GeneratedFile.place_output (hdown g hg)] at heq
    have hnames := List.append_cancel_left heq
    rcases mem_files hf with hf' | hf' <;> rcases mem_files hg with hg' | hg'
    · exact absurd (OperationModule.path_eq_of_names_eq hf' hg' hnames) hpath
    · exact Or.inl ⟨hf', OperationModule.not_mem_files hg'⟩
    · exact Or.inr ⟨hg', OperationModule.not_mem_files hf'⟩
    · exact absurd (path_eq_of_names_eq hf' hg' (hdown f hf) (hdown g hg) hnames) hpath
  · exact eq_of_place_eq hf hg hdown (fun f hf => isStay_of_mem_parts hoptions hf) heq

/-- Under the default options the module of the component `schema` and that of the operation `pets`
have places of their own. -/
theorem Api.own_content_iff_default :
    let d : Document := ⟨"3.0.0", ⟨"Pets", "1"⟩, some (.ofList
      [("/pets", ⟨none, [(.get, ⟨some "pets", none, none, .empty⟩)]⟩)]),
      some ⟨.ofList [("schema", .inline (.ofType .boolean))], .empty, .empty⟩⟩
    ∃ checked, Api.ofDocument .default d = .ok checked ∧
      ∃ fs', Output.writeAllOn "src/generated"
          ((checked.value.compile .default).files.map GeneratedFile.output)
          (FileSystem.start ["project"]) = (none, fs') ∧
        ∀ f ∈ (checked.value.compile .default).files,
          fs'.content? (f.output.place ["project"] "src/generated") = some f.content := by
  intro d
  have hwritten : ∀ checked, Api.ofDocument .default d = .ok checked →
      ∃ fs', Output.writeAllOn "src/generated"
        ((checked.value.compile .default).files.map GeneratedFile.output)
        (FileSystem.start ["project"]) = (none, fs') := by
    intro checked h
    obtain rfl := Except.ok.inj h
    rw [Api.files_eq_firstsBy]
    exact ⟨_, Prod.ext (by decide +kernel) rfl⟩
  have hd : Api.ofDocument .default d = .ok _ := rfl
  obtain ⟨fs', hrun⟩ := hwritten _ hd
  obtain ⟨hown, -, hplaces⟩ := Api.own_content_iff _ .default _ _ _ hrun
  have hoptions : ∀ path ∈ ["_components", "schema" ++ "." ++ "ts", "index." ++ "ts"],
      ∀ part ∈ Path.parts path, Path.isStay part = false := by decide
  exact ⟨_, hd, fs', hrun, hown.mpr fun f hf g hg heq =>
    congrArg GeneratedFile.content (hplaces hoptions f hf g hg heq)⟩

/-- The component directory is spelled with a slash at its end, so the module of the operation
`pets` is written over that of the component `schema`. -/
theorem Api.overwritten_of_slash :
    let d : Document := ⟨"3.0.0", ⟨"Pets", "1"⟩, some (.ofList
      [("/pets", ⟨none, [(.get, ⟨some "pets", none, none, .empty⟩)]⟩)]),
      some ⟨.ofList [("schema", .inline (.ofType .boolean))], .empty, .empty⟩⟩
    let options : OutputOptions := ⟨"pets/", "schema", "ts", "", "zod", false, true⟩
    ∃ checked, Api.ofDocument .default d = .ok checked ∧
      ∃ fs', Output.writeAllOn "src/generated"
          ((checked.value.compile options).files.map GeneratedFile.output)
          (FileSystem.start ["project"]) = (none, fs') ∧
        ∃ f ∈ (checked.value.compile options).files, ∃ g ∈ (checked.value.compile options).files,
          f.path = "pets//schema.ts" ∧ g.path = "pets/schema.ts" ∧ f.content ≠ g.content ∧
            f.output.place ["project"] "src/generated" =
              ["project", "src", "generated", "pets", "schema.ts"] ∧
            fs'.content? ["project", "src", "generated", "pets", "schema.ts"] = some g.content := by
  intro d options
  refine ⟨_, rfl, ?_⟩
  rw [Api.files_eq_firstsBy]
  refine ⟨_, Prod.ext (by decide +kernel) rfl, _, List.getElem_mem (n := 0) (by decide +kernel), _,
    List.getElem_mem (n := 1) (by decide +kernel), ?_⟩
  decide +kernel

end Places

end OpenApiZod
