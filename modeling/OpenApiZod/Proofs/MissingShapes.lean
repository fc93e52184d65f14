import OpenApiZod.Compilation
import OpenApiZod.Proofs.Generation
import OpenApiZod.Proofs.OperationModule

/-!
# References to missing shapes

A generated module is closed if it imports every component that its validators use, or is that
component's own module. What is missing from the table of components cannot be imported, and a
compilation without warnings should have no such reference.

Component modules report each missing target (`unknownShape_mem_warnings_iff`), except that nothing
is recorded of a component without a name, neither for imports nor for warnings. The modules of
operations import what their bodies refer to as far as it is there, and report nothing. So a
compilation without warnings has only closed modules exactly if the bodies of operations refer to
components and a component without a name refers to nothing but itself (`closed_iff_resolved`).
-/

open Relation

namespace OpenApiZod

open ComponentGenerator

/-! ### Reports -/

/-- The warnings report no missing target of a component. -/
def ReportsNothing (warnings : List Warning) : Prop :=
  ∀ owner target, .unknownShape owner target ∉ warnings

/-- Where there is no warning, nothing is reported. -/
theorem ReportsNothing.nil : ReportsNothing [] := fun _ _ => List.not_mem_nil

/-- Two lists that report no missing shape report none together. -/
theorem ReportsNothing.append {ws ws' : List Warning} (h : ReportsNothing ws)
    (h' : ReportsNothing ws') : ReportsNothing (ws ++ ws') := fun owner target hmem =>
  (List.mem_append.mp hmem).elim (h owner target) (h' owner target)

/-- Neither do lists that are collected over the elements of a list. -/
theorem ReportsNothing.flatMap {α : Type} {xs : List α} {f : α → List Warning}
    (h : ∀ x ∈ xs, ReportsNothing (f x)) : ReportsNothing (xs.flatMap f) := by
  intro owner target hmem
  obtain ⟨x, hx, hmem⟩ := List.mem_flatMap.mp hmem
  exact h x hx owner target hmem

/-- Naming the directories of operations warns about directories only. -/
theorem OperationModule.exists_renamed_of_mem_groupsFrom {taken ids : List String} {w : Warning}
    (h : w ∈ (groupsFrom taken ids).2) : ∃ id group, w = .renamed id group := by
  induction ids generalizing taken with
  | nil => exact absurd h List.not_mem_nil
  | cons id rest ih =>
      rw [groupsFrom] at h
      rcases List.mem_append.mp h with hmem | hmem
      · split at hmem
        · exact absurd hmem List.not_mem_nil
        · exact ⟨_, _, List.mem_singleton.mp hmem⟩
      · exact ih hmem

/-- Dropping files with repeated paths warns about paths only. -/
theorem exists_repeatedPath_of_mem_keepFirst {seen : List String} {fs : List GeneratedFile}
    {w : Warning} (h : w ∈ (keepFirst seen fs).2) : ∃ path, w = .repeatedPath path := by
  induction fs generalizing seen with
  | nil => exact absurd h List.not_mem_nil
  | cons f rest ih =>
      rw [keepFirst] at h
      split at h
      · rcases List.mem_cons.mp h with heq | hmem
        · exact ⟨_, heq⟩
        · exact ih hmem
      · exact ih h

/-- Naming the operation groups warns of renamed identifiers, never of a missing shape. -/
theorem OperationModule.reportsNothing_groupsFrom (taken ids : List String) :
    ReportsNothing (groupsFrom taken ids).2 := by
  intro owner target hmem
  obtain ⟨_, _, heq⟩ := exists_renamed_of_mem_groupsFrom hmem
  exact nomatch heq

/-- Dropping later files of a path warns of the drop, never of a missing shape. -/
theorem reportsNothing_keepFirst (seen : List String) (fs : List GeneratedFile) :
    ReportsNothing (keepFirst seen fs).2 := by
  intro owner target hmem
  obtain ⟨_, heq⟩ := exists_repeatedPath_of_mem_keepFirst hmem
  exact nomatch heq

/-- Making a document ready reports references to parts, never to shapes. -/
theorem Api.reportsNothing_resolve {α : Type} (table : String) (parts : Table (OrReference α))
    (part : OrReference α) : ReportsNothing (resolve table parts part).warnings := by
  intro owner target hmem
  unfold resolve at hmem
  split at hmem
  · exact absurd hmem List.not_mem_nil
  · split at hmem
    · exact nomatch List.mem_singleton.mp hmem
    · split at hmem
      · exact absurd hmem List.not_mem_nil
      · exact nomatch List.mem_singleton.mp hmem

/-- Making one operation ready reports references to parts, never missing shapes. -/
theorem Api.reportsNothing_entryRecord (naming : Naming) (components : Option Components)
    (path : String) (item : PathItem) (method : Method) (operation : Operation) :
    ReportsNothing (entryRecord naming components path item method operation).warnings := by
  refine ReportsNothing.append ?_ (ReportsNothing.flatMap fun r hr => ?_)
  · unfold requestShape
    split
    · exact ReportsNothing.nil
    · exact reportsNothing_resolve _ _ _
  · obtain ⟨⟨status, r'⟩, hentry, rfl⟩ := List.mem_map.mp hr
    obtain ⟨⟨status', response⟩, -, heq⟩ := List.mem_map.mp hentry
    obtain ⟨-, rfl⟩ := Prod.mk.inj heq
    show ReportsNothing (responseRecord components response).warnings
    unfold responseRecord
    dsimp only
    split <;> exact reportsNothing_resolve _ _ _

/-- So reading a document never reports a missing shape; only the compilation does. -/
theorem Api.reportsNothing_ofDocument {naming : Naming} {d : Document} {checked : Checked Api}
    (h : ofDocument naming d = .ok checked) : ReportsNothing checked.warnings := by
  rw [ofDocument] at h
  split at h
  · cases h
  · obtain rfl := Except.ok.inj h
    refine ReportsNothing.flatMap fun r hr => ?_
    obtain ⟨⟨path, item⟩, -, hr⟩ := List.mem_flatMap.mp hr
    obtain ⟨⟨method, operation⟩, -, rfl⟩ := List.mem_map.mp hr
    exact reportsNothing_entryRecord naming d.components path item method operation

/-! ### Compilations -/

/-- All files of an interface, before repeated paths are dropped. -/
def Api.written (api : Api) (options : OutputOptions) : List GeneratedFile :=
  ((ofComponents api.components options).generateTable .start).1 ++
    (OperationModule.files api options).1 ++
    if options.index then [Index.file api options (OperationModule.groups api options).1] else []

/-- The compiled files are the first of each path among those that are written. -/
theorem Api.files_compile (api : Api) (options : OutputOptions) :
    (api.compile options).files = (keepFirst [] (api.written options)).1 := by
  rw [compile, written]
  cases options.index <;> rfl

/-- The warnings of a compilation are those of the component table, of the renamed groups and of the
dropped files; only the first can report a missing shape. -/
theorem Api.warnings_compile (api : Api) (options : OutputOptions) :
    ∃ renamed, ReportsNothing renamed ∧ (api.compile options).warnings =
      ((ofComponents api.components options).generateTable .start).2.warnings ++ renamed ++
        (keepFirst [] (api.written options)).2 := by
  have hgroups : ReportsNothing (OperationModule.groups api options).2 :=
    OperationModule.reportsNothing_groupsFrom _ _
  rw [compile, written]
  cases options.index
  · exact ⟨_, hgroups.append ReportsNothing.nil, by simp only [List.append_assoc]; rfl⟩
  · exact ⟨_, hgroups.append hgroups, by simp only [List.append_assoc]; rfl⟩

/-- Nothing is dropped without a warning. -/
theorem keepFirst_of_no_warnings {seen : List String} {fs : List GeneratedFile}
    (h : (keepFirst seen fs).2 = []) :
    (keepFirst seen fs).1 = fs ∧ (fs.map (·.path)).Nodup ∧ ∀ f ∈ fs, f.path ∉ seen := by
  induction fs generalizing seen with
  | nil => exact ⟨rfl, List.nodup_nil, fun _ hf => absurd hf List.not_mem_nil⟩
  | cons f rest ih =>
      rw [keepFirst] at h ⊢
      by_cases hseen : f.path ∈ seen
      · rw [if_pos hseen] at h
        exact absurd h (List.cons_ne_nil _ _)
      · rw [if_neg hseen] at h ⊢
        obtain ⟨hfiles, hnodup, hnew⟩ := ih h
        refine ⟨congrArg (f :: ·) hfiles, List.nodup_cons.mpr ⟨fun hmem => ?_, hnodup⟩, ?_⟩
        · obtain ⟨g, hg, heq⟩ := List.mem_map.mp hmem
          exact hnew g hg (List.mem_append_right _ (List.mem_singleton.mpr heq))
        · intro g hg hmem
          rcases List.mem_cons.mp hg with rfl | hg
          · exact hseen hmem
          · exact hnew g hg (List.mem_append_left _ hmem)

/-- Nothing is dropped, and nothing reported, where all paths are different. -/
theorem keepFirst_eq_of_nodup {seen : List String} {fs : List GeneratedFile}
    (h : (fs.map (·.path)).Nodup) (hseen : ∀ f ∈ fs, f.path ∉ seen) :
    keepFirst seen fs = (fs, []) := by
  induction fs generalizing seen with
  | nil => rfl
  | cons f rest ih =>
      rw [List.map_cons, List.nodup_cons] at h
      rw [List.forall_mem_cons] at hseen
      have hrest : ∀ g ∈ rest, g.path ∉ seen ++ [f.path] := by
        intro g hg hmem
        rcases List.mem_append.mp hmem with hmem | hmem
        · exact hseen.2 g hg hmem
        · exact h.1 (List.mem_singleton.mp hmem ▸ List.mem_map_of_mem hg)
      rw [keepFirst, if_neg hseen.1, ih h.2 hrest]

/-- Complete tables are compiled without warnings where no directory is renamed and all paths are
different. -/
theorem Api.warnings_compile_eq_nil {api : Api} {options : OutputOptions}
    (hcomplete : Complete api.components) (hgroups : (OperationModule.groups api options).2 = [])
    (hpaths : ((api.written options).map (·.path)).Nodup) :
    (api.compile options).warnings = [] := by
  have htable : ((ofComponents api.components options).generateTable .start).2.warnings = [] :=
    warnings_generateTable hcomplete
  have hfiles : (OperationModule.files api options).2 = [] := hgroups
  have hkept : (keepFirst [] (api.written options)).2 = [] :=
    congrArg Prod.snd (keepFirst_eq_of_nodup hpaths fun _ _ => List.not_mem_nil)
  rw [written] at hkept
  rw [compile]
  cases hindex : options.index
  · rw [hindex] at hkept
    simp only [htable, hfiles]
    exact hkept
  · rw [hindex] at hkept
    simp only [htable, hfiles]
    exact (congrArg (· ++ _) hgroups).trans hkept

/-! ### Closed modules -/

/-- Each component that a file uses is imported, or it is the one that the file is generated
for. -/
def Closed (components : ComponentTable) (options : OutputOptions) (file : GeneratedFile) :
    Prop :=
  ∀ use ∈ file.uses, use.target ∈ file.imports ∨
    ((ofComponents components options).generate [] use.target .start).1 = some file

/-- Identifiers that a module declares or imports. -/
def Module.Binds (m : Module) (identifier : String) : Prop :=
  (∃ d ∈ m.declarations, d.name = identifier) ∨
    ∃ i ∈ m.imports, m.binding i.component = identifier

/-- Each identifier of a component that a module's validators contain is bound. -/
def Module.BindsAll (m : Module) : Prop :=
  ∀ d ∈ m.declarations, ∀ use ∈ d.validator.uses, m.Binds (m.binding use.target)

/-- The bodies of operations refer to components only, and a component without a name refers to
nothing but itself. -/
structure Api.Resolved (api : Api) : Prop where
  bodies : ∀ o ∈ api.operations.values, ∀ body ∈ OperationModule.bodies o,
    ∀ target ∈ body.references, target ∈ api.components.keys
  nameless : ∀ target, Refers api.components "" target → target = ""

/-- Every component is listed under its own name. -/
def Named (components : ComponentTable) : Prop :=
  ∀ name c, components.get? name = some c → c.name = name

/-- Every component of a document's interface carries the name it stands under. -/
theorem Api.named_ofDocument {naming : Naming} {d : Document} {checked : Checked Api}
    (h : ofDocument naming d = .ok checked) : Named checked.value.components := by
  rw [ofDocument] at h
  split at h
  · cases h
  · obtain rfl := Except.ok.inj h
    intro name c hc
    replace hc : (componentsOf d).get? name = some c := hc
    rw [componentsOf] at hc
    split at hc
    · rw [Table.get?_mapWithKey] at hc
      obtain ⟨schema, -, rfl⟩ := Option.map_eq_some_iff.mp hc
      rfl
    · cases hc

/-- The module of a closed file binds all identifiers. -/
theorem Closed.bindsAll {components : ComponentTable} {options : OutputOptions}
    {file : GeneratedFile} {m : Module} (h : Closed components options file)
    (hnamed : Named components) (hm : file.artifact = .module m) : m.BindsAll := by
  intro d hd use huse
  have huses : use ∈ file.uses := by
    rw [GeneratedFile.uses, hm]
    exact List.mem_flatMap.mpr ⟨d, hd, huse⟩
  rcases h use huses with himports | hown
  · rw [GeneratedFile.imports, hm] at himports
    obtain ⟨i, hi, heq⟩ := List.mem_map.mp himports
    exact Or.inr ⟨i, hi, congrArg m.binding heq⟩
  · rw [generate_start] at hown
    obtain ⟨c, hc, rfl⟩ := eq_file_of_fileOf? hown
    obtain rfl := Artifact.module.inj hm
    exact Or.inl ⟨_, List.mem_singleton_self _, congrArg Identifier.ofName (hnamed _ c hc)⟩

section Quiet

variable {api : Api} {options : OutputOptions}

/-- Without any warning every file is kept, no two share a path, and every reference of a component
leads into the table. -/
theorem Api.files_of_no_warnings (h : (api.compile options).warnings = []) :
    (api.compile options).files = api.written options ∧
      ((api.written options).map (·.path)).Nodup ∧
      ∀ owner target, Refers api.components owner target → owner ≠ "" →
        target ∈ api.components.keys := by
  obtain ⟨renamed, -, hwarnings⟩ := api.warnings_compile options
  rw [h] at hwarnings
  obtain ⟨htable, hrepeated⟩ := List.append_eq_nil_iff.mp hwarnings.symm
  obtain ⟨hfiles, hnodup, -⟩ := keepFirst_of_no_warnings hrepeated
  refine ⟨(api.files_compile options).trans hfiles, hnodup, fun owner target hrefers howner => ?_⟩
  by_contra hunknown
  have hmem : .unknownShape owner target ∈
      ((ofComponents api.components options).generateTable .start).2.warnings :=
    unknownShape_mem_warnings_iff.mpr ⟨howner, hrefers, hunknown⟩
  rw [(List.append_eq_nil_iff.mp htable).1] at hmem
  exact List.not_mem_nil hmem

/-- A file that is written is a component's, an operation module or the index. -/
theorem Api.mem_written_iff {f : GeneratedFile} :
    f ∈ api.written options ↔
      (∃ name ∈ api.components.keys, fileOf? api.components options name = some f) ∨
        f ∈ (OperationModule.files api options).1 ∨
        options.index = true ∧
          f = Index.file api options (OperationModule.groups api options).1 := by
  rw [written, List.mem_append, List.mem_append, mem_generateTable_iff, or_assoc]
  refine or_congr_right (or_congr_right ?_)
  cases options.index <;> simp

/-- If nothing that a component refers to is missing, all files of resolved interfaces are
closed. -/
theorem Api.Resolved.closed (h : api.Resolved)
    (htable : ∀ owner target, Refers api.components owner target → owner ≠ "" →
      target ∈ api.components.keys)
    {f : GeneratedFile} (hf : f ∈ api.written options) : Closed api.components options f := by
  intro use huse
  rcases mem_written_iff.mp hf with ⟨name, -, hfile⟩ | hf | ⟨-, rfl⟩
  · have hrefers : Refers api.components name use.target :=
      (mem_uses_fileOf?_iff hfile).mp ⟨use, huse, rfl⟩
    by_cases hself : use.target = name
    · rw [generate_start, hself]
      exact Or.inr hfile
    · have hname : name ≠ "" := by
        rintro rfl
        exact hself (h.nameless _ hrefers)
      exact Or.inl ((mem_imports_fileOf?_iff hfile).mpr
        ⟨⟨hrefers, hname, hself⟩, htable name _ hrefers hname⟩)
  · obtain ⟨o, ho, group, -, rfl⟩ := OperationModule.exists_operation_of_mem_files hf
    refine Or.inl (OperationModule.mem_imports_of_mem_uses (h.bodies o ho) ?_ huse)
    intro owner target hrefers
    by_cases howner : owner = ""
    · subst howner
      rw [h.nameless target hrefers]
      exact hrefers.mem_keys
    · exact htable owner target hrefers howner
  · exact absurd huse List.not_mem_nil

/-- A closed file of an operation imports all that it uses: it is no component's module. -/
theorem Closed.mem_imports_of_operation {components : ComponentTable} {o : OperationRecord}
    {group : String}
    (h : Closed components options (OperationModule.file components options o group))
    {use : Validator.Use} (huse : use ∈ (OperationModule.file components options o group).uses) :
    use.target ∈ (OperationModule.file components options o group).imports := by
  refine (h use huse).resolve_right fun hown => ?_
  rw [generate_start] at hown
  obtain ⟨c, -, heq⟩ := eq_file_of_fileOf? hown
  have hmodule := Artifact.module.inj (congrArg GeneratedFile.artifact heq)
  exact nomatch congrArg Module.layout hmodule

/-- Without warnings all files are closed exactly if the interface is resolved. -/
theorem Api.closed_iff_of_no_warnings (h : (api.compile options).warnings = []) :
    (∀ f ∈ (api.compile options).files, Closed api.components options f) ↔ api.Resolved := by
  obtain ⟨hfiles, hnodup, htable⟩ := files_of_no_warnings h
  rw [hfiles]
  constructor
  · intro hclosed
    refine ⟨fun o ho body hbody target htarget => ?_, fun target hrefers => ?_⟩
    · by_contra hunknown
      obtain ⟨group, hfile⟩ := OperationModule.exists_file_of_mem_operations ho
      have hfile' := hclosed _ (mem_written_iff.mpr (Or.inr (Or.inl hfile)))
      obtain ⟨huse, himports⟩ := OperationModule.mem_uses_of_not_mem_keys hbody htarget hunknown
      exact himports (hfile'.mem_imports_of_operation huse)
    · have hkey := hrefers.mem_keys
      have hsome : (fileOf? api.components options "").isSome = true :=
        isSome_fileOf?_iff.mpr hkey
      obtain ⟨file, hfile⟩ := Option.isSome_iff_exists.mp hsome
      obtain ⟨use, huse, rfl⟩ := (mem_uses_fileOf?_iff hfile).mpr hrefers
      have hfile' := hclosed file (mem_written_iff.mpr (Or.inl ⟨"", hkey, hfile⟩))
      rcases hfile' use huse with himports | hown
      · exact absurd rfl ((mem_imports_fileOf?_iff hfile).mp himports).1.2.1
      · rw [generate_start] at hown
        refine eq_of_fileOf?_eq ?_ hown hfile
        rw [written, List.append_assoc, List.map_append] at hnodup
        exact (List.nodup_append.mp hnodup).1
  · exact fun hresolved f hf => hresolved.closed htable hf

end Quiet

/-- **What goes unreported.** Of the references in a document exactly those from a component with a
name to a missing one are reported. If transforming and compiling it gives no warning, all
generated modules are closed exactly if the bodies of operations refer to components only and a
component without a name refers to nothing but itself; then every identifier of a component is
declared or imported where it is used. -/
theorem closed_iff_resolved (naming : Naming) (options : OutputOptions) (d : Document)
    (checked : Checked Api) (h : Api.ofDocument naming d = .ok checked) :
    let api := checked.value
    let compiled := api.compile options
    let warnings := checked.warnings ++ compiled.warnings
    (∀ owner target, .unknownShape owner target ∈ warnings ↔
        owner ≠ "" ∧ Refers api.components owner target ∧ target ∉ api.components.keys) ∧
      (warnings = [] →
        ((∀ f ∈ compiled.files, Closed api.components options f) ↔ api.Resolved) ∧
          (api.Resolved → ∀ f ∈ compiled.files, ∀ m, f.artifact = .module m → m.BindsAll)) := by
  intro api compiled warnings
  refine ⟨fun owner target => ?_, fun hquiet => ?_⟩
  · obtain ⟨renamed, hrenamed, hwarnings⟩ := api.warnings_compile options
    have htable := @unknownShape_mem_warnings_iff api.components options owner target
    have hchecked := Api.reportsNothing_ofDocument h owner target
    have hnames := hrenamed owner target
    have hpaths := reportsNothing_keepFirst [] (api.written options) owner target
    rw [← htable]
    show _ ∈ checked.warnings ++ (api.compile options).warnings ↔ _
    rw [hwarnings, List.mem_append, List.mem_append, List.mem_append]
    tauto
  · have hcompiled : (api.compile options).warnings = [] := (List.append_eq_nil_iff.mp hquiet).2
    have hiff := Api.closed_iff_of_no_warnings hcompiled
    exact ⟨hiff, fun hresolved f hf m hm =>
      (hiff.mpr hresolved f hf).bindsAll (Api.named_ofDocument h) hm⟩

/-- `Pet` refers to `Kind`, and an operation takes a `Pet` and answers with an object that holds
one: no warnings, and all modules bind their identifiers. -/
theorem closed_iff_resolved_present :
    let pet : Schema := .inline { Keywords.ofType .object with
      properties := [("kind", .reference "#/components/schemas/Kind")] }
    let saved : Schema := .inline { Keywords.ofType .object with
      properties := [("pet", .reference "#/components/schemas/Pet")] }
    let json (schema : Schema) : Content := .ofList [("application/json", ⟨some schema⟩)]
    let operation : Operation := ⟨some "createPet", none,
      some (.inline ⟨json (.reference "#/components/schemas/Pet")⟩),
      .ofList [("200", .inline ⟨"", json saved⟩)]⟩
    let d : Document := ⟨"3.0.0", ⟨"Pets", "1"⟩,
      some (.ofList [("/pets", ⟨none, [(.post, operation)]⟩)]),
      some ⟨.ofList [("Pet", pet), ("Kind", .inline (.ofType .string))], .empty, .empty⟩⟩
    ∃ checked, Api.ofDocument .default d = .ok checked ∧
      checked.warnings ++ (checked.value.compile .default).warnings = [] ∧
      ∀ f ∈ (checked.value.compile .default).files, ∀ m, f.artifact = .module m →
        m.BindsAll := by
  intro pet saved json operation d
  let components : ComponentTable := Api.componentsOf d
  have hkeys : components.keys = ["Pet", "Kind"] := rfl
  have hedges : ∀ x y, Refers components x y → x = "Pet" ∧ y = "Kind" := by
    rintro x y ⟨c, hc, hy⟩
    have hx := Table.mem_keys_of_get? hc
    rw [hkeys, List.mem_pair] at hx
    rcases hx with rfl | rfl <;> obtain rfl := Option.some.inj hc
    · exact ⟨rfl, List.mem_singleton.mp hy⟩
    · exact absurd hy List.not_mem_nil
  have hcomplete : Complete components := by
    refine ⟨fun x y h => (hedges x y h).2 ▸ by decide, fun name hcycle => ?_⟩
    obtain ⟨y, hfirst, hback⟩ := TransGen.head'_iff.mp hcycle
    obtain ⟨rfl, rfl⟩ := hedges name y hfirst
    obtain heq | ⟨z, hnext, -⟩ := ReflTransGen.cases_head hback
    · exact absurd heq (by decide)
    · exact absurd (hedges _ _ hnext).1 (by decide)
  have hmodules : ((ofComponents components .default).generateTable .start).1.map (·.path) =
      ["_components/Pet.ts", "_components/Kind.ts"] := by
    have hspec := generateTable_spec components .default .start Valid.start
    refine List.map_injective_iff.mpr (Option.some_injective _) ?_
    calc (((ofComponents components .default).generateTable .start).1.map (·.path)).map some
        = (((ofComponents components .default).generateTable .start).1.map some).map
            (Option.map (·.path)) := by rw [List.map_map, List.map_map]; rfl
      _ = _ := by rw [hspec]; decide
  have hquiet : ∃ checked, Api.ofDocument .default d = .ok checked ∧
      checked.warnings ++ (checked.value.compile .default).warnings = [] ∧
      checked.value.Resolved := by
    refine ⟨_, rfl, ?_, ?_, ?_⟩
    · refine List.append_eq_nil_iff.mpr ⟨by decide, Api.warnings_compile_eq_nil hcomplete
        (by decide) ?_⟩
      rw [Api.written, List.map_append, List.map_append, hmodules]
      decide
    · intro o ho
      obtain rfl := List.mem_singleton.mp ho
      decide
    · intro target hrefers
      exact absurd (hedges _ _ hrefers).1 (by decide)
  obtain ⟨checked, hchecked, hwarnings, hresolved⟩ := hquiet
  obtain ⟨-, hclosed⟩ := closed_iff_resolved .default .default d checked hchecked
  exact ⟨checked, hchecked, hwarnings, (hclosed hwarnings).2 hresolved⟩

/-- A request body that refers to a missing shape: no warnings, and the module refers to an
identifier that it does not bind. -/
theorem not_bindsAll_of_missing_request_body :
    let body : RequestBody := ⟨.ofList [("application/json",
      ⟨some (.reference "#/components/schemas/Ghost")⟩)]⟩
    let operation : Operation := ⟨some "createPet", none, some (.inline body), .empty⟩
    let d : Document := ⟨"3.0.0", ⟨"Pets", "1"⟩,
      some (.ofList [("/pets", ⟨none, [(.post, operation)]⟩)]), none⟩
    ∃ checked, Api.ofDocument .default d = .ok checked ∧
      checked.warnings ++ (checked.value.compile .default).warnings = [] ∧
      ∃ f ∈ (checked.value.compile .default).files, ∃ m, f.artifact = .module m ∧
        ¬ m.BindsAll := by
  intro body operation d
  refine ⟨_, rfl, by decide, _, List.mem_cons_self, _, rfl, fun h => ?_⟩
  rcases h _ List.mem_cons_self ⟨"Ghost", false⟩ (List.mem_singleton_self _) with
    ⟨d, hd, hname⟩ | ⟨i, hi, -⟩
  · obtain rfl := List.mem_singleton.mp hd
    exact absurd hname (by decide)
  · exact List.not_mem_nil hi

end OpenApiZod
