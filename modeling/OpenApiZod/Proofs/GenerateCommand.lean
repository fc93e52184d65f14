import OpenApiZod.Command
import OpenApiZod.Proofs.SharedPlaces

/-!
# The generate command

What `generate` does to files. It reads the configuration and the document, makes the output
directory and writes the files of the compilation below it (`Command.runOn_generate`), or it ends
early (`Command.Generated`).

With plain names in the options no document can make it lose an operation or leave the output
directory (`Command.generate_confined`).
-/

namespace OpenApiZod

/-! ### Actions on files -/

/-- What an action gives on given files, and the files after it. -/
def Command.result {α : Type} (action : ExceptT CommandError (StateM FileSystem) α)
    (fs : FileSystem) : Except CommandError α × FileSystem :=
  action.run.run fs

namespace Command

variable {α β : Type}

/-- The second of two actions is done on the files that the first has left, unless that has failed.
-/
theorem result_bind (action : ExceptT CommandError (StateM FileSystem) α)
    (next : α → ExceptT CommandError (StateM FileSystem) β) (fs : FileSystem) :
    result (action >>= next) fs =
      match result action fs with
      | (.ok a, fs') => result (next a) fs'
      | (.error e, fs') => (.error e, fs') := by
  rw [result, ExceptT.run_bind, StateT.run_bind, result]
  cases action.run.run fs with
  | mk r fs' => cases r <;> rfl

/-- An action that cannot fail gives its answer. -/
theorem result_lift (action : StateM FileSystem α) (fs : FileSystem) :
    result (ExceptT.lift action) fs = (.ok (action.run fs).1, (action.run fs).2) := by
  rw [result, ExceptT.run_lift, StateT.run_map]
  rfl

/-- Looking for a file changes nothing. -/
theorem result_exists? (path : String) (fs : FileSystem) :
    result (Storage.exists? path) fs = (.ok (fs.find? path).isSome, fs) := rfl

/-- Nor does reading one. -/
theorem result_read? (path : String) (fs : FileSystem) :
    result (Storage.read? path) fs = (.ok (fs.read? path), fs) := rfl

/-- Making directories says whether they could be made. -/
theorem result_makeDirectories (path : String) (fs : FileSystem) :
    result (Storage.makeDirectories path) fs =
      (.ok (fs.makeDirectories? path).isSome, (fs.makeDirectories? path).getD fs) := by
  have hlift : (Storage.makeDirectories path : ExceptT CommandError (StateM FileSystem) Bool) =
    ExceptT.lift (Storage.makeDirectories path) := rfl
  rw [hlift, result_lift, FileSystem.run_makeDirectories]
  rfl

end Command

namespace Output

variable {ε : Type} {m : Type → Type} [Monad m] [LawfulMonad m] [Storage m]

/-- Writing a text never ends a command early by itself. -/
theorem write_lift (base : String) (o : Output) :
    (write base o : ExceptT ε m (Option OutputError)) = ExceptT.lift (write base o) := by
  rw [write, write]
  split
  · exact ExceptT.ext (by simp)
  · refine ExceptT.ext ?_
    simp only [Storage.makeDirectories, Storage.write, ExceptT.run_bind_lift, ExceptT.run_lift,
      map_bind]
    refine bind_congr fun made => ?_
    cases made with
    | false => simp
    | true =>
        simp only [Bool.not_true, Bool.false_eq_true, if_false, map_bind, ExceptT.run_bind_lift]
        refine bind_congr fun written => ?_
        cases written <;> simp

/-- Writing may be lifted over errors as a whole. -/
theorem writeAll_lift (base : String) (outputs : List Output) :
    (writeAll base outputs : ExceptT ε m (Option OutputError)) =
      ExceptT.lift (writeAll base outputs) := by
  induction outputs with
  | nil => exact ExceptT.ext (by simp [writeAll])
  | cons o rest ih =>
      rw [writeAll, writeAll, write_lift]
      refine ExceptT.ext ?_
      rw [ExceptT.run_bind_lift, ExceptT.run_lift, map_bind]
      refine bind_congr fun error => ?_
      cases error with
      | some error => simp
      | none => rw [ih, ExceptT.run_lift]

end Output

namespace Command

/-- In a command all files are written as by `Output.writeAllOn`. -/
theorem result_writeAll (base : String) (outputs : List Output) (fs : FileSystem) :
    result (Output.writeAll base outputs) fs =
      (.ok (Output.writeAllOn base outputs fs).1, (Output.writeAllOn base outputs fs).2) := by
  rw [Output.writeAll_lift, result_lift]
  rfl

/-- An action that reads: it leaves the files as they are, and its errors are not about writing. -/
def Reads (action : ExceptT CommandError (StateM FileSystem) α) : Prop :=
  ∀ fs, (result action fs).2 = fs ∧ ∀ error, (result action fs).1 ≠ .error (.output error)

/-- Two actions that read are one that reads. -/
theorem Reads.bind {action : ExceptT CommandError (StateM FileSystem) α}
    {next : α → ExceptT CommandError (StateM FileSystem) β} (h : Reads action)
    (hnext : ∀ a, Reads (next a)) : Reads (action >>= next) := by
  intro fs
  obtain ⟨hfiles, herror⟩ := h fs
  rw [result_bind]
  cases hrun : result action fs with
  | mk r fs' =>
      rw [hrun] at hfiles herror
      cases r with
      | ok a =>
          obtain rfl : fs' = fs := hfiles
          exact hnext a fs'
      | error e =>
          refine ⟨hfiles, fun error heq => herror error ?_⟩
          exact congrArg Except.error (Except.error.inj heq)

/-- Such an action leaves the files as they are, and its error is not one of writing. -/
theorem Reads.exists_result {action : ExceptT CommandError (StateM FileSystem) α}
    (h : Reads action) (fs : FileSystem) :
    ∃ r, result action fs = (r, fs) ∧ ∀ error, r ≠ .error (.output error) :=
  ⟨_, Prod.ext rfl (h fs).1, (h fs).2⟩

/-- To answer at once reads. -/
theorem reads_pure (a : α) : Reads (pure a) := fun _ => ⟨rfl, fun _ h => nomatch h⟩

/-- So does failing, other than in writing. -/
theorem reads_throw {e : CommandError} (h : ∀ error, e ≠ .output error) :
    Reads (throw e : ExceptT CommandError (StateM FileSystem) α) :=
  fun _ => ⟨rfl, fun error heq => h error (Except.error.inj heq)⟩

/-- So does looking for a file. -/
theorem reads_exists? (path : String) : Reads (Storage.exists? path) :=
  fun _ => ⟨rfl, fun _ h => nomatch h⟩

/-- So does reading one. -/
theorem reads_read? (path : String) : Reads (Storage.read? path) :=
  fun _ => ⟨rfl, fun _ h => nomatch h⟩

/-- The configuration is only read. -/
theorem reads_loadConfig : Reads loadConfig := by
  refine Reads.bind (reads_exists? Config.fileName) fun found => ?_
  split
  · exact reads_pure _
  · refine Reads.bind (reads_read? Config.fileName) fun text => ?_
    split
    · exact reads_throw fun _ h => nomatch h
    · split
      · exact reads_throw fun _ h => nomatch h
      · exact reads_pure _

/-- So is the document. -/
theorem reads_loadApi (config : Config) (path : String) : Reads (loadApi config path) := by
  refine Reads.bind (reads_read? path) fun text => ?_
  split
  · exact reads_throw fun _ h => nomatch h
  · split
    · exact reads_throw fun _ h => nomatch h
    · split
      · exact reads_throw fun _ h => nomatch h
      · exact reads_pure _

/-- The configuration and the interface that `generate` finds. -/
structure Loads (fs : FileSystem) (input : Option String) (config : Config) (api : Api) : Prop where
  loadsConfig : result loadConfig fs = (.ok config, fs)
  loadsApi : result (loadApi config (input.getD config.input)) fs = (.ok api, fs)

/-- Without a configuration file the defaults hold. -/
theorem result_loadConfig_default {fs : FileSystem} (h : fs.find? Config.fileName = none) :
    result loadConfig fs = (.ok .default, fs) := by
  rw [loadConfig, result_bind, result_exists?, h]
  rfl

/-- A document that can be read and made ready gives its interface. -/
theorem result_loadApi {fs : FileSystem} {config : Config} {path text : String} {d : Document}
    {checked : Checked Api} (hread : fs.read? path = some text)
    (htext : Document.ofText? (formatOf path) text = some d)
    (h : Api.ofDocument config.naming d = .ok checked) :
    result (loadApi config path) fs = (.ok checked.value, fs) := by
  rw [loadApi, result_bind, result_read?, hread]
  simp only [htext, h]
  rfl

/-- What `generate` does with the configuration and the interface that it finds. -/
theorem runOn_generate {fs : FileSystem} {input : Option String} {config : Config} {api : Api}
    (h : Loads fs input config api) (output : Option String) :
    runOn (.generate input output) fs =
      let compilation := api.compile config.options
      let directory := output.getD config.output
      match fs.makeDirectories? directory with
      | none => (.error (.outputDirectory directory), fs)
      | some made =>
        match Output.writeAllOn directory (compilation.files.map GeneratedFile.output) made with
        | (some error, fs') => (.error (.output error), fs')
        | (none, fs') =>
          (.ok ⟨"", cycleNote compilation.dependencies.cycles.length ++
            writtenNote api compilation directory⟩, fs') := by
  have houtputs : (api.compile config.options).files.map (fun f => Output.mk f.path f.content) =
      (api.compile config.options).files.map GeneratedFile.output := rfl
  show result (runGenerate input output) fs = _
  rw [runGenerate, result_bind, h.loadsConfig]
  simp only [result_bind, h.loadsApi, result_makeDirectories]
  cases fs.makeDirectories? (output.getD config.output) with
  | none => rfl
  | some made =>
      simp only [Option.isSome_some, Option.getD_some, Bool.not_true, Bool.false_eq_true, if_false,
        result_bind, result_writeAll, houtputs]
      cases Output.writeAllOn (output.getD config.output)
          ((api.compile config.options).files.map GeneratedFile.output) made with
      | mk error fs' => cases error <;> rfl

/-- `generate` ends without an error if its directory can be made and all files can be written. -/
theorem exists_printed {fs made : FileSystem} {input : Option String} {config : Config} {api : Api}
    (h : Loads fs input config api) (output : Option String)
    (hmade : fs.makeDirectories? (output.getD config.output) = some made)
    (hnone : (Output.writeAllOn (output.getD config.output)
      ((api.compile config.options).files.map GeneratedFile.output) made).1 = none) :
    ∃ printed, (runOn (.generate input output) fs).1 = .ok printed := by
  rw [runOn_generate h]
  simp only [hmade]
  cases hrun : Output.writeAllOn (output.getD config.output)
      ((api.compile config.options).files.map GeneratedFile.output) made with
  | mk error fs' =>
      obtain rfl : error = none := by rwa [hrun] at hnone
      exact ⟨_, rfl⟩

/-- What `generate` can do: end before anything is written, write the files up to one that cannot be
written, or write them all. -/
inductive Generated (fs : FileSystem) (input output : Option String) :
    Except CommandError Printed × FileSystem → Prop
  | unloaded {e : CommandError} (h : ∀ error, e ≠ .output error) :
      Generated fs input output (.error e, fs)
  | unwritten {config : Config} {api : Api} {made fs' : FileSystem} {error : OutputError}
      (hloads : Loads fs input config api)
      (hmade : fs.makeDirectories? (output.getD config.output) = some made)
      (hrun : Output.writeAllOn (output.getD config.output)
        ((api.compile config.options).files.map GeneratedFile.output) made = (some error, fs')) :
      Generated fs input output (.error (.output error), fs')
  | written {config : Config} {api : Api} {made fs' : FileSystem} {printed : Printed}
      (hloads : Loads fs input config api)
      (hmade : fs.makeDirectories? (output.getD config.output) = some made)
      (hrun : Output.writeAllOn (output.getD config.output)
        ((api.compile config.options).files.map GeneratedFile.output) made = (none, fs')) :
      Generated fs input output (.ok printed, fs')

/-- With a configuration and an interface the files are written, all or up to one that cannot be. -/
theorem generated_of_loads {fs : FileSystem} {input : Option String} {config : Config} {api : Api}
    (h : Loads fs input config api) (output : Option String) :
    Generated fs input output (runOn (.generate input output) fs) := by
  rw [runOn_generate h]
  dsimp only
  cases hmade : fs.makeDirectories? (output.getD config.output) with
  | none => exact .unloaded fun _ heq => nomatch heq
  | some made =>
      cases hrun : Output.writeAllOn (output.getD config.output)
          ((api.compile config.options).files.map GeneratedFile.output) made with
      | mk error fs' =>
          cases error with
          | none => simpa only [hrun] using .written h hmade hrun
          | some error => simpa only [hrun] using .unwritten h hmade hrun

/-- So `generate` does one of these three things, whatever the files are. -/
theorem generated_runOn (fs : FileSystem) (input output : Option String) :
    Generated fs input output (runOn (.generate input output) fs) := by
  obtain ⟨r, hconfig, hread⟩ := reads_loadConfig.exists_result fs
  cases r with
  | error e =>
      show Generated fs input output (result (runGenerate input output) fs)
      rw [runGenerate, result_bind, hconfig]
      exact .unloaded fun error heq => hread error (congrArg Except.error heq)
  | ok config =>
      obtain ⟨r, hapi, hread'⟩ :=
        (reads_loadApi config (input.getD config.input)).exists_result fs
      cases r with
      | ok api => exact generated_of_loads ⟨hconfig, hapi⟩ output
      | error e =>
          show Generated fs input output (result (runGenerate input output) fs)
          rw [runGenerate, result_bind, hconfig]
          simp only [result_bind, hapi]
          exact .unloaded fun error heq => hread' error (congrArg Except.error heq)

end Command

/-! ### Plain names -/

/-- A path of plain names goes nowhere but down. -/
theorem Path.isDescending_of_isPlain {path : String} (h : ∀ part ∈ parts path, IsPlain part) :
    isDescending path = true := by
  have hempty : ¬ IsPlain "" := by decide
  have hdot : ¬ IsPlain "." := by decide
  have hup : ¬ IsPlain ".." := by decide
  rw [isDescending_iff]
  refine ⟨?_, fun hhead => ?_, fun hmem => hup (h ".." hmem)⟩
  · rw [← Bool.not_eq_true, isAbsolute_iff]
    rintro ⟨p, ps, hparts⟩
    exact hempty (h "" (hparts ▸ List.mem_cons_self))
  · exact hdot (h "." (List.mem_of_mem_head? hhead))

section Compiled

variable {api : Api} {options : OutputOptions}

/-- With plain names in the options, the paths of all compiled files are made of plain names. -/
theorem Api.isPlain_of_mem_parts (hdir : IsPlain options.componentsDir)
    (hfile : IsPlain options.operationFile) (hextension : IsPlain options.extension)
    {f : GeneratedFile} (hf : f ∈ (api.compile options).files) :
    ∀ part ∈ Path.parts f.path, IsPlain part := by
  have hparts : ∀ name, IsPlain name →
      Path.parts (name ++ "." ++ options.extension) = [name ++ "." ++ options.extension] :=
    fun name hname => Path.parts_of_isPlain (hname.extension hextension)
  have hindex : IsPlain ("index" ++ "." ++ options.extension) :=
    IsPlain.extension (by decide) hextension
  rcases mem_files hf with hf | hf
  · obtain ⟨group, hgroup, hpath⟩ := OperationModule.exists_path hf
    rw [hpath, parts_operationPath hgroup, hparts _ hfile, List.forall_mem_cons,
      List.forall_mem_singleton]
    exact ⟨isPlain_of_mem_groups hgroup, hfile.extension hextension⟩
  · rcases List.mem_append.mp hf with hf | hf
    · obtain ⟨name, hpath⟩ := exists_path_of_component hf
      rw [hpath, componentPath, Path.parts_slash, Path.parts_of_isPlain hdir,
        hparts _ (isPlain_pathSegment name), List.singleton_append, List.forall_mem_cons,
        List.forall_mem_singleton]
      exact ⟨hdir, (isPlain_pathSegment name).extension hextension⟩
    · rw [path_of_mem_indexFiles hf]
      intro part hpart
      have hsingle : part ∈ Path.parts ("index" ++ "." ++ options.extension) := hpart
      rw [Path.parts_of_isPlain hindex] at hsingle
      exact List.mem_singleton.mp hsingle ▸ hindex

end Compiled

/-! ### The command -/

namespace Command

section Confined

variable {fs : FileSystem} {input output : Option String} {config : Config}
  {run : Except CommandError Printed × FileSystem}

/-- There is one configuration. -/
theorem Loads.config_eq {config' : Config} {api : Api} (h : Loads fs input config' api)
    (hconfig : result loadConfig fs = (.ok config, fs)) : config = config' :=
  Except.ok.inj (Prod.mk.inj (hconfig.symm.trans h.loadsConfig)).1

variable (hconfig : result loadConfig fs = (.ok config, fs))
  (hplain : ∀ api : Api, ∀ f ∈ (api.compile config.options).files, ∀ part ∈ Path.parts f.path,
    IsPlain part)

include hconfig hplain

/-- Paths of plain names are not refused. -/
theorem Generated.not_refused (h : Generated fs input output run) (path base : String) :
    run.1 ≠ .error (.output (.outside path base)) := by
  cases h with
  | unloaded hread => exact fun heq => hread _ (Except.error.inj heq)
  | written => exact fun heq => nomatch heq
  | @unwritten _ api made _ error hloads _ hrun =>
      obtain rfl := hloads.config_eq hconfig
      intro heq
      have hdown : ∀ o ∈ (api.compile config.options).files.map GeneratedFile.output,
          Path.isDescending o.path = true := by
        rw [List.forall_mem_map]
        exact fun f hf => Path.isDescending_of_isPlain (hplain api f hf)
      have hrefused := Output.writeAll_not_refused (output.getD config.output) made hdown path base
      rw [hrun] at hrefused
      refine hrefused ?_
      exact congrArg some (CommandError.output.inj (Except.error.inj heq))

omit hplain in
/-- Nothing changes but the output directory and the way to it. -/
theorem Generated.changesBelow (h : Generated fs input output run) :
    fs.ChangesBelow (output.getD config.output) run.2 := by
  cases h with
  | unloaded => exact .refl fs _
  | @unwritten _ api made _ _ hloads hmade hrun | @written _ api made _ _ hloads hmade hrun =>
      obtain rfl := hloads.config_eq hconfig
      have hbelow := Output.changesBelow_writeAll (output.getD config.output)
        ((api.compile config.options).files.map GeneratedFile.output) made
      rw [hrun] at hbelow
      exact (FileSystem.addsDirectories_makeDirectories? hmade).changesBelow.trans hbelow

/-- Where files have paths of plain names, all stand where they belong after a run without error. -/
theorem Generated.exists_loads {printed : Printed} (h : Generated fs input output run)
    (hrun : run.1 = .ok printed) :
    ∃ api, Loads fs input config api ∧ ∀ f ∈ (api.compile config.options).files,
      run.2.content? (f.output.place fs.workingDirectory (output.getD config.output)) =
        some f.content := by
  cases h with
  | unloaded => exact nomatch hrun
  | unwritten => exact nomatch hrun
  | @written _ api made fs' _ hloads hmade hwritten =>
      obtain rfl := hloads.config_eq hconfig
      have hown := Output.writeAll_own_iff hwritten
      rw [(FileSystem.addsDirectories_makeDirectories? hmade).workingDirectory] at hown
      simp only [List.forall_mem_map] at hown
      refine ⟨api, hloads, hown.mpr fun f hf g hg heq => ?_⟩
      have hsame : f = g := Api.eq_of_place_eq hf hg
        (fun f hf => Path.isDescending_of_isPlain (hplain api f hf))
        (fun f hf part hpart => Path.isStay_of_isPlain (hplain api f hf part hpart)) heq
      rw [hsame]

end Confined

/-- **What no document can do.** Take a configuration with plain names for the component directory,
the name of operation modules and the extension. Of the files of any document compilation drops
nothing but modules of components whose path segment is that of an earlier component; each operation
has its module, and all paths are made of plain names. When `generate` is run on files with this
configuration, it refuses no path and changes nothing but what is below the output directory, apart
from directories that are missing on the way there. If it ends without an error, every compiled file
stands where its path leads. -/
theorem generate_confined (config : Config) (hdir : IsPlain config.options.componentsDir)
    (hfile : IsPlain config.options.operationFile)
    (hextension : IsPlain config.options.extension) :
    (∀ d checked, Api.ofDocument config.naming d = .ok checked →
      let api := checked.value
      let files := (api.compile config.options).files
      (∃ components, components.map some = (firstsBy pathSegment [] api.components.keys).map
          (ComponentGenerator.fileOf? api.components config.options) ∧
        files = components ++ (OperationModule.files api config.options).1 ++
          api.indexFiles config.options) ∧
      (∀ o ∈ api.operations.values, ∃ group,
        OperationModule.file api.components config.options o group ∈ files) ∧
      ∀ f ∈ files, Path.isDescending f.path = true ∧ ∀ part ∈ Path.parts f.path, IsPlain part) ∧
    ∀ fs input output, result loadConfig fs = (.ok config, fs) →
      let run := runOn (.generate input output) fs
      let directory := output.getD config.output
      (∀ path base, run.1 ≠ .error (.output (.outside path base))) ∧
      fs.ChangesBelow directory run.2 ∧
      ∀ printed, run.1 = .ok printed → ∃ api, Loads fs input config api ∧
        ∀ f ∈ (api.compile config.options).files,
          run.2.content? (f.output.place fs.workingDirectory directory) = some f.content := by
  have hplain (api : Api) : ∀ f ∈ (api.compile config.options).files,
      ∀ part ∈ Path.parts f.path, IsPlain part := fun f hf =>
    Api.isPlain_of_mem_parts hdir hfile hextension hf
  constructor
  · intro d checked h api files
    have hfiles := Api.files_of_isPlain api hdir hextension
    refine ⟨⟨_, Api.firstsBy_componentFiles (Api.named_ofDocument h), hfiles⟩, fun o ho => ?_,
      fun f hf => ⟨Path.isDescending_of_isPlain (hplain api f hf), hplain api f hf⟩⟩
    obtain ⟨group, hmem⟩ := OperationModule.exists_file_of_mem_operations ho
    refine ⟨group, ?_⟩
    rw [show files = _ from hfiles]
    exact List.mem_append_left _ (List.mem_append_right _ hmem)
  · intro fs input output hconfig run directory
    have hrun := generated_runOn fs input output
    exact ⟨hrun.not_refused hconfig hplain, hrun.changesBelow hconfig, fun printed hok =>
      hrun.exists_loads hconfig hplain hok⟩

/-- An operation whose id would lead out of the output directory has its module inside. -/
theorem generate_confined_outside :
    let text :=
      "\x7b\"paths\":\x7b\"/pets\":\x7b\"get\":\x7b\"operationId\":\"../pets\"\x7d\x7d\x7d\x7d"
    let fs : FileSystem := ⟨[(["openapi.json"], .file text)], []⟩
    let run := runOn (.generate (some "openapi.json") none) fs
    (∃ printed, run.1 = .ok printed) ∧ fs.ChangesBelow "src/generated" run.2 ∧
      ∃ content, run.2.content? ["src", "generated", ".._pets", "schema.ts"] = some content := by
  intro text fs run
  let d : Document := ⟨"", ⟨"", ""⟩, some (.ofList
    [("/pets", ⟨none, [(.get, ⟨some "../pets", none, none, .empty⟩)]⟩)]), none⟩
  have hconfig : result loadConfig fs = (.ok .default, fs) :=
    result_loadConfig_default (by decide +kernel)
  have hread : fs.read? "openapi.json" = some text := by decide +kernel
  have hformat : formatOf "openapi.json" = .json := by decide +kernel
  have htext : Document.ofText? (formatOf "openapi.json") text = some d := by
    have hread : Json.Tree.read? text = some (.object [(some "paths", .object
        [(some "/pets", .object [(some "get", .object
          [(some "operationId", .string (some "../pets"))])])])]) := by
      simp only [text]
      cbv
    rw [hformat, Document.ofText?, hread]
    rfl
  have hd : Api.ofDocument .default d = .ok _ := rfl
  have hloads : Loads fs (some "openapi.json") .default _ :=
    ⟨hconfig, result_loadApi hread htext hd⟩
  obtain ⟨-, hconfined⟩ :=
    generate_confined .default (by decide) (by decide) (by decide)
  obtain ⟨-, hbelow, hstands⟩ := hconfined fs (some "openapi.json") none hconfig
  have hwritten : ∀ checked, Api.ofDocument .default d = .ok checked →
      (fs.makeDirectories? "src/generated").map (fun made => (Output.writeAllOn "src/generated"
        ((checked.value.compile .default).files.map GeneratedFile.output) made).1) = some none := by
    intro checked h
    obtain rfl := Except.ok.inj h
    rw [Api.files_eq_firstsBy]
    decide +kernel
  obtain ⟨made, hmade, hnone⟩ := Option.map_eq_some_iff.mp (hwritten _ hd)
  obtain ⟨printed, hprinted⟩ := exists_printed hloads none hmade hnone
  have hmem : ∀ checked, Api.ofDocument .default d = .ok checked →
      ∃ f ∈ (checked.value.compile .default).files, f.output.place [] "src/generated" =
        ["src", "generated", ".._pets", "schema.ts"] := by
    intro checked h
    obtain rfl := Except.ok.inj h
    rw [Api.files_eq_firstsBy]
    exact ⟨_, List.getElem_mem (n := 0) (by decide +kernel), by decide +kernel⟩
  obtain ⟨f, hf, hplace⟩ := hmem _ hd
  obtain ⟨api, hloads', hfiles⟩ := hstands printed hprinted
  obtain rfl := Except.ok.inj (Prod.mk.inj (hloads.loadsApi.symm.trans hloads'.loadsApi)).1
  exact ⟨⟨printed, hprinted⟩, hbelow, f.content, hplace ▸ hfiles f hf⟩

end Command

end OpenApiZod
