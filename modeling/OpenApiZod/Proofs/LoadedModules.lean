import OpenApiZod.Proofs.CompiledFiles
import OpenApiZod.Proofs.Loading

/-!
# Loading compiled modules

A module's declarations are evaluated when the module is loaded. A bare reference needs the binding
of its target at that moment, a deferred one does not. A component's module defers exactly the
references whose targets lead back to the component, so bare references never lead in a circle from
component to component.

Imports name a component's module by its path segment, though, and of the components with one
segment only the first keeps its module. Modules that are kept may therefore import each other where
the components do not lead back to each other, and then there is an order of loading in which a
binding is used before it is there. `ComponentGenerator.deferred_iff_leads_back` says when:
`SegmentImports` is what the modules import of each other, read off the table.
-/

open Relation

namespace OpenApiZod

/-! ### Deferred references -/

/-- The text of a deferred reference. -/
theorem Validator.render_deferred (binding : String → String) (target : String) :
    (Validator.deferred target).render binding = "z.lazy(() => " ++ binding target ++ ")" := by
  have hcall : "z" ++ "." ++ "lazy" ++ "(" ++ "() => " = "z.lazy(() => " := by decide
  rw [← hcall]
  simp only [Validator.render, Validator.script, Validator.zod, Script.render, Script.renderAll,
    Text.separated, String.append_assoc]

/-- The text of a reference that is not deferred. -/
theorem Validator.render_reference (binding : String → String) (target : String) :
    (Validator.reference target).render binding = binding target := by
  simp only [Validator.render, Validator.script, Script.render]

/-- Uses are told by their targets where the targets tell which of them are deferred. -/
theorem Validator.uses_eq_map {uses : List Use} (deferred : String → Prop)
    [DecidablePred deferred]
    (h : ∀ use ∈ uses, (use.deferred = true ↔ deferred use.target)) :
    uses = (uses.map (·.target)).map fun target => ⟨target, decide (deferred target)⟩ := by
  rw [List.map_map]
  refine (List.map_id uses).symm.trans (List.map_congr_left fun use huse => ?_)
  have hdecide : decide (deferred use.target) = use.deferred :=
    Bool.eq_iff_iff.mpr (decide_eq_true_iff.trans (h use huse).symm)
  rw [Function.comp, hdecide, id]

namespace ComponentGenerator

section Cache

variable {components : ComponentTable} {options : OutputOptions} {p : Progress}

/-- The module of `owner` has a bare reference to `target`. -/
def RefersBare (files : Table GeneratedFile) (owner target : String) : Prop :=
  ∃ file, files.get? owner = some file ∧ ⟨target, false⟩ ∈ file.uses

/-- The bare references of a component's module are those whose targets do not lead back. -/
theorem mem_uses_fileOf?_bare_iff {name target : String} {file : GeneratedFile}
    (h : fileOf? components options name = some file) :
    ⟨target, false⟩ ∈ file.uses ↔
      Refers components name target ∧ ¬ ReflTransGen (Refers components) target name := by
  obtain ⟨c, hc, huses⟩ := uses_fileOf? h
  obtain ⟨htargets, hdeferred⟩ := uses_componentValidator hc
  rw [huses]
  constructor
  · intro huse
    refine ⟨⟨c, hc, htargets ▸ List.mem_map_of_mem huse⟩, fun hback => ?_⟩
    exact Bool.false_ne_true ((hdeferred _ huse).mpr hback)
  · rintro ⟨⟨c', hc', hmem⟩, hback⟩
    rw [hc] at hc'
    obtain rfl := Option.some.inj hc'
    rw [← htargets] at hmem
    obtain ⟨⟨_, deferred⟩, huse, rfl⟩ := List.mem_map.mp hmem
    have hbare : deferred = false := Bool.eq_false_iff.mpr fun h => hback ((hdeferred _ huse).mp h)
    exact hbare ▸ huse

/-- What a component's module imports. -/
theorem exists_import_fileOf?_iff {name target : String} {file : GeneratedFile} {m : Module}
    (h : fileOf? components options name = some file) (hm : file.artifact = .module m) :
    (∃ i ∈ m.imports, i.component = target) ↔
      (Refers components name target ∧ name ≠ "" ∧ target ≠ name) ∧ target ∈ components.keys := by
  rw [← mem_imports_fileOf?_iff h, GeneratedFile.imports, hm]
  exact List.mem_map.symm

/-- Bare references between cached modules do not lead in a circle. -/
theorem Valid.not_transGen_refersBare (h : Valid components options [] p) (name : String) :
    ¬ TransGen (RefersBare p.cache) name name := by
  have hrefers : ∀ owner target, RefersBare p.cache owner target →
      Refers components owner target ∧ ¬ ReflTransGen (Refers components) target owner := by
    rintro owner target ⟨file, hfile, huse⟩
    exact (mem_uses_fileOf?_bare_iff (h.cached owner file hfile)).mp huse
  intro hcycle
  obtain ⟨target, hfirst, hback⟩ := TransGen.head'_iff.mp hcycle
  refine (hrefers _ _ hfirst).2 ?_
  exact ReflTransGen.mono (fun _ _ hbare => (hrefers _ _ hbare).1) _ _ hback

end Cache

end ComponentGenerator

/-! ### What modules import -/

/-- The specifiers under which a file imports components' modules or exports modules again. -/
def Artifact.specifiers : Artifact → List String
  | .module m => m.imports.map (·.specifier)
  | .index i => i.flat ++ i.namespaces.map Prod.snd

/-- The path that a specifier in a file leads to. What is added to every specifier stands for the
extension of the file. -/
def GeneratedFile.destination (options : OutputOptions) (f : GeneratedFile) (specifier : String) :
    String :=
  let added := options.importExtension.toList.length
  let stem := String.ofList (specifier.toList.take (specifier.toList.length - added))
  "/".intercalate (Path.resolve f.directory stem) ++ "." ++ options.extension

/-- The files of an interface, by their paths, with the paths of what they import. -/
def Api.modules (api : Api) (options : OutputOptions) : Table (List String) where
  entries := (api.compile options).files.map fun f =>
    (f.path, f.artifact.specifiers.map (f.destination options))
  nodup := by
    rw [List.map_map]
    exact api.nodup_paths_files options

/-- The module at `a` needs the one at `b` to be evaluated first: it imports a component from there
to which it has a bare reference. -/
def Api.Needs (api : Api) (options : OutputOptions) (a b : String) : Prop :=
  ∃ f ∈ (api.compile options).files, f.path = a ∧ ∃ m, f.artifact = .module m ∧
    ∃ i ∈ m.imports, ⟨i.component, false⟩ ∈ f.uses ∧ f.destination options i.specifier = b

/-- What the modules of components import of each other, by their path segments. Only the first
component with a segment keeps its module, and for one without a name nothing is recorded, so its
module has no imports. -/
def SegmentImports (components : ComponentTable) (s t : String) : Prop :=
  ∃ name ∈ firstsBy pathSegment [] components.keys, ∃ target ∈ components.keys,
    (Refers components name target ∧ name ≠ "" ∧ target ≠ name) ∧
      pathSegment name = s ∧ pathSegment target = t

/-- Where no two components share a path segment, modules import each other as components refer to
each other. -/
theorem reflTransGen_refers_of_segmentImports {components : ComponentTable}
    (hsegments : ∀ a ∈ components.keys, ∀ b ∈ components.keys,
      pathSegment a = pathSegment b → a = b)
    {a b : String} (ha : a ∈ components.keys) (hb : b ∈ components.keys)
    (h : ReflTransGen (SegmentImports components) (pathSegment a) (pathSegment b)) :
    ReflTransGen (Refers components) a b := by
  generalize hs : pathSegment b = s at h
  induction h generalizing b with
  | refl => rw [hsegments b hb a ha hs]
  | tail _ hstep ih =>
      obtain ⟨name, hname, target, htarget, ⟨hrefers, -, -⟩, hsegment, hsegment'⟩ := hstep
      rw [hsegments b hb target htarget (hs.trans hsegment'.symm)]
      exact (ih (mem_of_mem_firstsBy hname) hsegment).tail hrefers

section Modules

variable {api : Api} {options : OutputOptions}

/-- The written modules stand under the paths of the compiled files. -/
theorem Api.mem_keys_modules_iff {path : String} :
    path ∈ (api.modules options).keys ↔ ∃ f ∈ (api.compile options).files, f.path = path := by
  rw [Table.keys, modules, List.map_map, List.mem_map]
  rfl

/-- One written module imports another when a specifier of its text leads to the place of the other,
and a file is written there. -/
theorem Api.imports_modules_iff {a b : String} :
    Imports (api.modules options) a b ↔
      (∃ f ∈ (api.compile options).files, f.path = a ∧
        ∃ specifier ∈ f.artifact.specifiers, f.destination options specifier = b) ∧
        b ∈ (api.modules options).keys := by
  refine and_congr_left fun _ => ?_
  simp only [← Table.mem_entries_iff, modules, List.mem_map, Prod.mk.injEq]
  constructor
  · rintro ⟨_, ⟨f, hf, rfl, rfl⟩, hb⟩
    exact ⟨f, hf, rfl, List.mem_map.mp hb⟩
  · rintro ⟨f, hf, rfl, hb⟩
    exact ⟨_, ⟨f, hf, rfl, rfl⟩, List.mem_map.mpr hb⟩

/-- The specifier of a component leads to the path of its module. -/
theorem Starts.destination_specifier {f : GeneratedFile} {start : String}
    (h : Starts options f.directory start) (hdir : IsPlain options.componentsDir) (name : String) :
    f.destination options (start ++ "/" ++ pathSegment name ++ options.importExtension) =
      componentPath options (pathSegment name) := by
  have hjoin (a b : String) : "/".intercalate [a, b] = a ++ "/" ++ b := rfl
  have hstem : ∀ s t : String,
      String.ofList ((s ++ t).toList.take ((s ++ t).toList.length - t.toList.length)) = s := by
    intro s t
    rw [String.toList_append, List.length_append, Nat.add_sub_cancel, List.take_left,
      String.ofList_toList]
  rw [GeneratedFile.destination, hstem, h.resolve_specifier hdir, hjoin, componentPath]
  simp only [String.append_assoc]

variable (hnamed : Named api.components) (hdir : IsPlain options.componentsDir)
  (hextension : IsPlain options.extension)
include hnamed

/-- Each component's path is that of a module, its own or that of an earlier component. -/
theorem Api.componentPath_mem_keys {name : String} (hname : name ∈ api.components.keys) :
    componentPath options (pathSegment name) ∈ (api.modules options).keys := by
  obtain ⟨name', -, hsegment, f, hf, hfile⟩ := exists_compiled_component options hnamed hname
  refine mem_keys_modules_iff.mpr ⟨f, hf, ?_⟩
  rw [ComponentGenerator.path_of_fileOf? hnamed hfile, hsegment, componentPath]

include hdir hextension

/-- The files at components' paths are those of the first components with their segments. -/
theorem Api.mem_files_componentPath_iff {f : GeneratedFile} {segment : String} :
    f ∈ (api.compile options).files ∧ f.path = componentPath options segment ↔
      ∃ name ∈ firstsBy pathSegment [] api.components.keys, pathSegment name = segment ∧
        ComponentGenerator.fileOf? api.components options name = some f := by
  have hkept : f ∈ firstsBy (·.path) [] (api.componentFiles options) ↔
      ∃ name ∈ firstsBy pathSegment [] api.components.keys,
        ComponentGenerator.fileOf? api.components options name = some f := by
    rw [← List.mem_map_of_injective (Option.some_injective _), firstsBy_componentFiles hnamed,
      List.mem_map]
  rw [files_of_isPlain api hdir hextension, List.mem_append, List.mem_append]
  constructor
  · rintro ⟨(hf | hf) | hf, hpath⟩
    · obtain ⟨name, hname, hfile⟩ := hkept.mp hf
      refine ⟨name, hname, componentPath_injective options ?_, hfile⟩
      rw [← hpath, ComponentGenerator.path_of_fileOf? hnamed hfile, componentPath]
    · exact absurd hpath (OperationModule.path_ne_componentPath hdir hf segment)
    · have hslash : '/' ∈ (componentPath options segment).toList := by simp [componentPath]
      rw [← hpath, path_of_mem_indexFiles hf, String.toList_append, List.mem_append] at hslash
      rcases hslash with hslash | hslash
      · exact absurd hslash (by decide)
      · exact absurd hslash hextension.1
  · rintro ⟨name, hname, rfl, hfile⟩
    exact ⟨Or.inl (Or.inl (hkept.mpr ⟨name, hname, hfile⟩)),
      ComponentGenerator.path_of_fileOf? hnamed hfile⟩

/-- The first component with a path segment keeps its module. -/
theorem Api.exists_module_of_first {name : String}
    (hname : name ∈ firstsBy pathSegment [] api.components.keys) :
    ∃ f m, f ∈ (api.compile options).files ∧ f.path = componentPath options (pathSegment name) ∧
      f.artifact = .module m ∧
      ComponentGenerator.fileOf? api.components options name = some f := by
  have hsome : (ComponentGenerator.fileOf? api.components options name).isSome = true :=
    ComponentGenerator.isSome_fileOf?_iff.mpr (mem_of_mem_firstsBy hname)
  obtain ⟨f, hfile⟩ := Option.isSome_iff_exists.mp hsome
  obtain ⟨-, -, m, hm, -⟩ := ComponentGenerator.module_of_fileOf? hnamed hfile
  obtain ⟨hf, hpath⟩ := (mem_files_componentPath_iff hnamed hdir hextension).mpr
    ⟨name, hname, rfl, hfile⟩
  exact ⟨f, m, hf, hpath, hm, hfile⟩

variable (hoperation : IsPlain options.operationFile)
include hoperation

/-- The imports of a module lead to components' paths. -/
theorem Api.destination_of_mem_imports {f : GeneratedFile} (hf : f ∈ (api.compile options).files)
    {m : Module} (hm : f.artifact = .module m) {i : Import} (hi : i ∈ m.imports) :
    i.component ∈ api.components.keys ∧
      f.destination options i.specifier = componentPath options (pathSegment i.component) := by
  obtain ⟨start, hstart, himports⟩ := starts_of_mem_files hnamed hdir hoperation hextension hf hm
  obtain ⟨hkey, hspecifier⟩ := himports i hi
  rw [hspecifier]
  exact ⟨hkey, hstart.destination_specifier hdir _⟩

/-- What a component's module imports. -/
theorem Api.imports_componentPath_iff {segment b : String} :
    Imports (api.modules options) (componentPath options segment) b ↔
      ∃ t, SegmentImports api.components segment t ∧ b = componentPath options t := by
  rw [imports_modules_iff]
  constructor
  · rintro ⟨⟨f, hf, hpath, specifier, hspecifier, rfl⟩, -⟩
    obtain ⟨name, hname, hsegment, hfile⟩ :=
      (mem_files_componentPath_iff hnamed hdir hextension).mp ⟨hf, hpath⟩
    obtain ⟨-, -, m, hm, -⟩ := ComponentGenerator.module_of_fileOf? hnamed hfile
    rw [hm, Artifact.specifiers] at hspecifier
    obtain ⟨i, hi, rfl⟩ := List.mem_map.mp hspecifier
    obtain ⟨hkey, hdestination⟩ :=
      destination_of_mem_imports hnamed hdir hextension hoperation hf hm hi
    obtain ⟨hrefers, -⟩ :=
      (ComponentGenerator.exists_import_fileOf?_iff hfile hm).mp ⟨i, hi, rfl⟩
    exact ⟨_, ⟨name, hname, i.component, hkey, hrefers, hsegment, rfl⟩, hdestination⟩
  · rintro ⟨t, ⟨name, hname, target, htarget, hrefers, hsegment, rfl⟩, rfl⟩
    obtain ⟨f, m, hf, hpath, hm, hfile⟩ := exists_module_of_first hnamed hdir hextension hname
    obtain ⟨i, hi, rfl⟩ :=
      (ComponentGenerator.exists_import_fileOf?_iff hfile hm).mpr ⟨hrefers, htarget⟩
    refine ⟨⟨f, hf, hsegment ▸ hpath, i.specifier, ?_, ?_⟩, componentPath_mem_keys hnamed htarget⟩
    · rw [hm, Artifact.specifiers]
      exact List.mem_map_of_mem hi
    · exact (destination_of_mem_imports hnamed hdir hextension hoperation hf hm hi).2

/-- From a component's module imports lead to components' modules alone. -/
theorem Api.reflTransGen_imports_iff {segment b : String} :
    ReflTransGen (Imports (api.modules options)) (componentPath options segment) b ↔
      ∃ t, ReflTransGen (SegmentImports api.components) segment t ∧
        b = componentPath options t := by
  constructor
  · intro h
    induction h with
    | refl => exact ⟨segment, ReflTransGen.refl, rfl⟩
    | tail _ hstep ih =>
        obtain ⟨t, ht, rfl⟩ := ih
        obtain ⟨u, hu, rfl⟩ :=
          (imports_componentPath_iff hnamed hdir hextension hoperation).mp hstep
        exact ⟨u, ht.tail hu, rfl⟩
  · rintro ⟨t, ht, rfl⟩
    induction ht with
    | refl => exact ReflTransGen.refl
    | tail _ hstep ih =>
        exact ih.tail ((imports_componentPath_iff hnamed hdir hextension hoperation).mpr
          ⟨_, hstep, rfl⟩)

/-- Modules import what they need. -/
theorem Api.imports_of_needs {a b : String} (h : api.Needs options a b) :
    Imports (api.modules options) a b ∧
      ∃ target ∈ api.components.keys, b = componentPath options (pathSegment target) := by
  obtain ⟨f, hf, hpath, m, hm, i, hi, -, rfl⟩ := h
  obtain ⟨hkey, hdestination⟩ :=
    destination_of_mem_imports hnamed hdir hextension hoperation hf hm hi
  refine ⟨imports_modules_iff.mpr ⟨⟨f, hf, hpath, i.specifier, ?_, rfl⟩, ?_⟩, _, hkey, hdestination⟩
  · rw [hm, Artifact.specifiers]
    exact List.mem_map_of_mem hi
  · rw [hdestination]
    exact componentPath_mem_keys hnamed hkey

/-- What a component's module needs: the targets that do not lead back to the component. -/
theorem Api.needs_componentPath_iff {segment b : String} :
    api.Needs options (componentPath options segment) b ↔
      ∃ name ∈ firstsBy pathSegment [] api.components.keys, ∃ target ∈ api.components.keys,
        Refers api.components name target ∧ name ≠ "" ∧
          ¬ ReflTransGen (Refers api.components) target name ∧
          pathSegment name = segment ∧ b = componentPath options (pathSegment target) := by
  constructor
  · rintro ⟨f, hf, hpath, m, hm, i, hi, huse, rfl⟩
    obtain ⟨name, hname, hsegment, hfile⟩ :=
      (mem_files_componentPath_iff hnamed hdir hextension).mp ⟨hf, hpath⟩
    obtain ⟨hkey, hdestination⟩ :=
      destination_of_mem_imports hnamed hdir hextension hoperation hf hm hi
    obtain ⟨⟨hrefers, hne, -⟩, -⟩ :=
      (ComponentGenerator.exists_import_fileOf?_iff hfile hm).mp ⟨i, hi, rfl⟩
    obtain ⟨-, hback⟩ := (ComponentGenerator.mem_uses_fileOf?_bare_iff hfile).mp huse
    exact ⟨name, hname, i.component, hkey, hrefers, hne, hback, hsegment, hdestination⟩
  · rintro ⟨name, hname, target, htarget, hrefers, hne, hback, hsegment, rfl⟩
    obtain ⟨f, m, hf, hpath, hm, hfile⟩ := exists_module_of_first hnamed hdir hextension hname
    have hother : target ≠ name := by
      rintro rfl
      exact hback ReflTransGen.refl
    obtain ⟨i, hi, rfl⟩ := (ComponentGenerator.exists_import_fileOf?_iff hfile hm).mpr
      ⟨⟨hrefers, hne, hother⟩, htarget⟩
    have huse := (ComponentGenerator.mem_uses_fileOf?_bare_iff hfile).mpr ⟨hrefers, hback⟩
    refine ⟨f, hf, hsegment ▸ hpath, m, hm, i, hi, huse, ?_⟩
    exact (destination_of_mem_imports hnamed hdir hextension hoperation hf hm hi).2

/-- Every order of loading is right exactly if no bare reference has a target from whose module the
imports lead back. -/
theorem Api.initialised_load_iff :
    (∀ entries,
        Initialised (api.Needs options) (load (api.modules options) [] entries [])) ↔
      ∀ name ∈ firstsBy pathSegment [] api.components.keys, ∀ target ∈ api.components.keys,
        Refers api.components name target → name ≠ "" →
          ¬ ReflTransGen (Refers api.components) target name →
            ¬ ReflTransGen (SegmentImports api.components) (pathSegment target)
              (pathSegment name) := by
  have hneeds : ∀ a b, api.Needs options a b → Imports (api.modules options) a b :=
    fun _ _ h => (imports_of_needs hnamed hdir hextension hoperation h).1
  rw [OpenApiZod.initialised_load_iff hneeds]
  constructor
  · intro h name hname target htarget hrefers hne hback hlead
    refine h _ _ ((needs_componentPath_iff hnamed hdir hextension hoperation).mpr
      ⟨name, hname, target, htarget, hrefers, hne, hback, rfl, rfl⟩) ?_
    exact (reflTransGen_imports_iff hnamed hdir hextension hoperation).mpr ⟨_, hlead, rfl⟩
  · intro h a b hab hlead
    obtain ⟨-, other, -, rfl⟩ := imports_of_needs hnamed hdir hextension hoperation hab
    -- What leads back to the module is a component's, so the module is one, too.
    obtain ⟨segment, hsegment, rfl⟩ :=
      (reflTransGen_imports_iff hnamed hdir hextension hoperation).mp hlead
    obtain ⟨name, hname, target, htarget, hrefers, hne, hback, rfl, heq⟩ :=
      (needs_componentPath_iff hnamed hdir hextension hoperation).mp hab
    rw [componentPath_injective options heq] at hsegment
    exact h name hname target htarget hrefers hne hback hsegment

end Modules

namespace ComponentGenerator

open Classical in
/-- **Which references are deferred.** After any run of requests the modules written, among them
those that answer the requests, refer to `target` behind a function if the references in the table
lead from `target` back to the module's own component, and by its bare name otherwise. So bare
references never lead in a circle from component to component.

With plain options loading evaluates every module that it is asked for. It evaluates each one after
those that it has bare references to, whatever it starts with, if and only if no such reference has
a target from whose module the imports lead back. Components that do not share path segments
guarantee that; those that do may break it. -/
theorem deferred_iff_leads_back (naming : Naming) (options : OutputOptions) (d : Document)
    (checked : Checked Api) (h : Api.ofDocument naming d = .ok checked) (names : List String) :
    let api := checked.value
    let components := api.components
    let run := (ofComponents components options).requests names .start
    let files := run.2.cache
    (∀ owner file, (owner, some file) ∈ names.zip run.1 → files.get? owner = some file) ∧
      (∀ owner file, files.get? owner = some file →
        ∃ c m d form, components.get? owner = some c ∧ file.artifact = .module m ∧
          m.declarations = [d] ∧ d.validator = .ofShape form c.shape ∧
          (∀ target ∈ c.shape.references, (form target).render m.binding =
            if ReflTransGen (Refers components) target owner then
              "z.lazy(() => " ++ Identifier.ofName target ++ ")"
            else Identifier.ofName target) ∧
          file.uses = d.validator.uses ∧ d.validator.uses.map (·.target) = c.shape.references ∧
          ∀ use ∈ d.validator.uses,
            (use.deferred = true ↔ ReflTransGen (Refers components) use.target owner)) ∧
      (∀ name, ¬ TransGen (RefersBare files) name name) ∧
      (IsPlain options.componentsDir → IsPlain options.operationFile → IsPlain options.extension →
        let modules := api.modules options
        (∀ entries, ∀ entry ∈ entries, entry ∈ modules.keys → entry ∈ load modules [] entries []) ∧
          ((∀ entries, Initialised (api.Needs options) (load modules [] entries [])) ↔
            ∀ name ∈ firstsBy pathSegment [] components.keys, ∀ target ∈ components.keys,
              Refers components name target → name ≠ "" →
                ¬ ReflTransGen (Refers components) target name →
                  ¬ ReflTransGen (SegmentImports components) (pathSegment target)
                    (pathSegment name)) ∧
          ((∀ a ∈ components.keys, ∀ b ∈ components.keys, pathSegment a = pathSegment b → a = b) →
            ∀ entries, Initialised (api.Needs options) (load modules [] entries []))) := by
  intro api components run files
  have hnamed := Api.named_ofDocument h
  have hrun := requests_spec components options names .start Valid.start
  have hvalid : Valid components options [] run.2 := hrun.valid
  refine ⟨?_, ?_, hvalid.not_transGen_refersBare, ?_⟩
  · intro owner file hanswer
    obtain ⟨howner, hfile⟩ := (mem_zip_requests_iff components options names owner _).mp hanswer
    have hkey : owner ∈ components.keys :=
      isSome_fileOf?_iff.mp (Option.isSome_of_eq_some hfile.symm)
    obtain ⟨file', hfile'⟩ := Table.mem_keys_iff.mp (hrun.cached owner howner hkey)
    have heq : fileOf? components options owner = some file' := hvalid.cached owner file' hfile'
    rw [show files.get? owner = some file' from hfile', ← heq, hfile]
  · intro owner file hfile
    obtain ⟨c, hc, rfl⟩ := eq_file_of_fileOf? (hvalid.cached owner file hfile)
    obtain ⟨htargets, hdeferred⟩ := uses_componentValidator hc
    refine ⟨c, _, _, _, hc, rfl, rfl, rfl, ?_, List.flatMap_singleton _ _, htargets, hdeferred⟩
    intro target htarget
    have hrefers : Refers components owner target := ⟨c, hc, htarget⟩
    rw [← shared_cycleGroups_iff_leads_back hrefers]
    by_cases h : (ReferenceGraph.ofComponents components).cycleGroups.shared owner target = true
    · rw [if_pos h, if_pos h]
      exact Validator.render_deferred _ target
    · rw [if_neg h, if_neg h]
      exact Validator.render_reference _ target
  · intro hdir hoperation hextension modules
    have hiff := Api.initialised_load_iff hnamed hdir hextension hoperation
    refine ⟨fun entries entry hentry hkey => ?_, hiff, fun hsegments => hiff.mpr ?_⟩
    · have hloaded := load_spec modules [] entries []
      exact (hloaded.reached entry hentry hkey).resolve_right List.not_mem_nil
    · intro name hname target htarget _ _ hback hlead
      exact hback (reflTransGen_refers_of_segmentImports hsegments htarget
        (mem_of_mem_firstsBy hname) hlead)

/-- `A` refers to `B` and `C`, and `B` refers back to `A`: the module of `A` defers its reference
to `B`, but not the one to `C`, and the modules may be loaded in any order. -/
theorem deferred_iff_leads_back_cycle :
    let a : Schema := .inline { Keywords.ofType .object with properties :=
      [("b", .reference "#/components/schemas/B"), ("c", .reference "#/components/schemas/C")] }
    let d : Document := ⟨"3.0.0", ⟨"Pets", "1"⟩, none, some ⟨.ofList
      [("A", a), ("B", .reference "#/components/schemas/A"), ("C", .inline (.ofType .boolean))],
      .empty, .empty⟩⟩
    ∃ checked, Api.ofDocument .default d = .ok checked ∧
      (let run := (ofComponents checked.value.components .default).requests ["A"] .start
        ∃ file, run.1 = [some file] ∧ file.uses = [⟨"B", true⟩, ⟨"C", false⟩]) ∧
      ∀ entries, Initialised (checked.value.Needs .default)
        (load (checked.value.modules .default) [] entries []) := by
  intro a d
  refine ⟨_, rfl, ?_⟩
  have hd : Api.ofDocument .default d = .ok _ := rfl
  let components : ComponentTable := Api.componentsOf d
  obtain ⟨hanswer, hfiles, -, hload⟩ := deferred_iff_leads_back .default .default d _ hd ["A"]
  obtain ⟨-, -, hsegments⟩ := hload (by decide) (by decide) (by decide)
  refine ⟨?_, hsegments ?_⟩
  · classical
    have hA : components.get? "A" = some ⟨"A", none,
        .object [("b", .reference "B"), ("c", .reference "C")] [] .unspecified⟩ := by rfl
    have hB : components.get? "B" = some ⟨"B", none, .reference "A"⟩ := by rfl
    have hC : components.get? "C" = some ⟨"C", none, .boolean⟩ := by rfl
    have hrun : ((ofComponents components .default).requests ["A"] .start).1 =
        [fileOf? components .default "A"] :=
      (requests_spec components .default ["A"] .start Valid.start).answers
    have hkey : "A" ∈ components.keys := Table.mem_keys_of_get? hA
    obtain ⟨file, hfile⟩ := Option.isSome_iff_exists.mp (isSome_fileOf?_iff.mpr hkey)
    rw [hfile] at hrun
    have hcached := hanswer "A" file (hrun ▸ List.mem_cons_self)
    obtain ⟨c, m, declaration, form, hc, -, -, -, -, huses, htargets, hdeferred⟩ :=
      hfiles "A" file hcached
    obtain rfl := Option.some.inj (hA.symm.trans hc)
    have hback : ReflTransGen (Refers components) "B" "A" :=
      ReflTransGen.single ⟨_, hB, List.mem_singleton_self _⟩
    have hahead : ¬ ReflTransGen (Refers components) "C" "A" := by
      intro h
      obtain heq | ⟨next, ⟨c, hc, hmem⟩, -⟩ := ReflTransGen.cases_head h
      · exact absurd heq (by decide)
      · obtain rfl := Option.some.inj (hC.symm.trans hc)
        exact List.not_mem_nil hmem
    refine ⟨file, hrun, ?_⟩
    have hleads := Validator.uses_eq_map
      (fun target => ReflTransGen (Refers components) target "A") hdeferred
    rw [huses, hleads, htargets]
    simp [Shape.references, Shape.referencesOfProperties, hback, hahead]
  · have hkeys : components.keys = ["A", "B", "C"] := rfl
    show ∀ a ∈ components.keys, ∀ b ∈ components.keys, pathSegment a = pathSegment b → a = b
    rw [hkeys]
    decide

/-- `a/b` refers to `C`, and `C` to `a_b`. No reference leads back, so all are bare. But the module
of `a_b` is dropped in favour of that of `a/b`, which has its path segment: the two modules that are
left need each other, and no order evaluates both without using a binding before it is there. -/
theorem not_initialised_of_shared_segment :
    let d : Document := ⟨"3.0.0", ⟨"Pets", "1"⟩, none, some ⟨.ofList
      [("a/b", .inline { Keywords.ofType .object with
          properties := [("c", .reference "#/components/schemas/C")] }),
        ("a_b", .inline (.ofType .string)),
        ("C", .inline { Keywords.ofType .object with
          properties := [("x", .reference "#/components/schemas/a_b")] })], .empty, .empty⟩⟩
    ∃ checked, Api.ofDocument .default d = .ok checked ∧
      (∀ name, ¬ TransGen (Refers checked.value.components) name name) ∧
      (∀ order, Initialised (checked.value.Needs .default) order →
        "_components/a_b.ts" ∉ order ∧ "_components/C.ts" ∉ order) ∧
      ∀ entry ∈ ["_components/a_b.ts", "_components/C.ts"],
        entry ∈ load (checked.value.modules .default) [] [entry] [] ∧
          ¬ Initialised (checked.value.Needs .default)
            (load (checked.value.modules .default) [] [entry] []) := by
  intro d
  let components : ComponentTable := Api.componentsOf d
  obtain ⟨checked, hd, hcomponents⟩ : ∃ checked, Api.ofDocument .default d = .ok checked ∧
      checked.value.components = components := ⟨_, rfl, rfl⟩
  have hnamed := Api.named_ofDocument hd
  have hkeys : components.keys = ["a/b", "a_b", "C"] := rfl
  have hedges : ∀ x y, Refers components x y → x = "a/b" ∧ y = "C" ∨ x = "C" ∧ y = "a_b" := by
    rintro x y ⟨c, hc, hy⟩
    have hx := Table.mem_keys_of_get? hc
    simp only [hkeys, List.mem_cons, List.not_mem_nil, or_false] at hx
    rcases hx with rfl | rfl | rfl <;> obtain rfl := Option.some.inj hc
    · exact Or.inl ⟨rfl, List.mem_singleton.mp hy⟩
    · exact absurd hy List.not_mem_nil
    · exact Or.inr ⟨rfl, List.mem_singleton.mp hy⟩
  have hacyclic : ∀ name, ¬ TransGen (Refers components) name name := by
    have hleads : ∀ x y, TransGen (Refers components) x y →
        x = "a/b" ∧ y = "C" ∨ x = "C" ∧ y = "a_b" ∨ x = "a/b" ∧ y = "a_b" := by
      intro x y h
      induction h with
      | single h => exact (hedges _ _ h).imp_right Or.inl
      | tail _ hstep ih =>
          obtain ⟨rfl, rfl⟩ | ⟨rfl, rfl⟩ := hedges _ _ hstep <;> simp_all
    intro name hcycle
    obtain ⟨rfl, h⟩ | ⟨rfl, h⟩ | ⟨rfl, h⟩ := hleads name name hcycle <;>
      exact absurd h (by decide)
  have hneeds (segment b : String) :
      checked.value.Needs .default (componentPath .default segment) b ↔ _ :=
    Api.needs_componentPath_iff hnamed (by decide) (by decide) (by decide)
  rw [hcomponents] at hneeds
  have hforth : checked.value.Needs .default "_components/a_b.ts" "_components/C.ts" := by
    refine (hneeds "a_b" _).mpr ⟨"a/b", by decide, "C", by decide, ?_, by decide, ?_, by decide,
      by decide⟩
    · exact ⟨_, rfl, List.mem_singleton_self _⟩
    · exact fun hback => hacyclic "C" (TransGen.tail' hback ⟨_, rfl, List.mem_singleton_self _⟩)
  have hback : checked.value.Needs .default "_components/C.ts" "_components/a_b.ts" := by
    refine (hneeds "C" _).mpr ⟨"C", by decide, "a_b", by decide, ?_, by decide, ?_, by decide,
      by decide⟩
    · exact ⟨_, rfl, List.mem_singleton_self _⟩
    · exact fun hback => hacyclic "a_b" (TransGen.tail' hback ⟨_, rfl, List.mem_singleton_self _⟩)
  have hnone : ∀ order, Initialised (checked.value.Needs .default) order →
      "_components/a_b.ts" ∉ order ∧ "_components/C.ts" ∉ order := fun order h =>
    ⟨h.not_mem_of_transGen (.tail (.single hforth) hback),
      h.not_mem_of_transGen (.tail (.single hback) hforth)⟩
  refine ⟨checked, hd, hcomponents ▸ hacyclic, hnone, fun entry hentry => ?_⟩
  have hkey : entry ∈ (checked.value.modules .default).keys := by
    rw [List.mem_pair] at hentry
    rcases hentry with rfl | rfl
    · have hname : "a_b" ∈ checked.value.components.keys := hcomponents ▸ by decide
      exact Api.componentPath_mem_keys hnamed hname
    · have hname : "C" ∈ checked.value.components.keys := hcomponents ▸ by decide
      exact Api.componentPath_mem_keys hnamed hname
  have hloaded := ((load_spec _ [] [entry] []).reached entry List.mem_cons_self hkey).resolve_right
    List.not_mem_nil
  refine ⟨hloaded, fun hinit => ?_⟩
  rw [List.mem_pair] at hentry
  rcases hentry with rfl | rfl
  · exact (hnone _ hinit).1 hloaded
  · exact (hnone _ hinit).2 hloaded

end ComponentGenerator

end OpenApiZod
