import Mathlib.Data.List.Nodup
import Mathlib.Data.Option.Basic
import OpenApiZod.Proofs.ComponentFile

/-!
# Generation of component modules

What `ComponentGenerator.generate` has cached and which names are on its chain decides in which
order modules are written, but not what stands in them: every request that is not for a name on the
chain is answered with the component's `fileOf?`. The references recorded against a component do not
depend on the chain either, so every module gets the same imports and gives the same warnings.

`Valid` is the invariant of generation, and `generate_spec` what one request does to it. A run of
requests keeps it (`requests_spec`), so the order of requests does not matter (`requests_agree`).
-/

open Relation

namespace OpenApiZod

namespace ComponentGenerator

/-! ### The invariant -/

section Invariant

variable {components : ComponentTable} {options : OutputOptions}

/-- What holds of the progress of generation. `chain` lists the components whose files are being
generated. -/
structure Valid (components : ComponentTable) (options : OutputOptions) (chain : List String)
    (p : Progress) : Prop where
  cached : ∀ name file, p.cache.get? name = some file → fileOf? components options name = some file
  /-- Only components that are cached or being generated have recorded their targets. -/
  recorded : ∀ name, p.graph.dependencies name =
    if name ∈ chain ∨ name ∈ p.cache.keys then targetsOf components name else []
  owners : p.graph.OwnersRefer
  closed : ∀ name ∈ p.cache.keys, ∀ target ∈ targetsOf components name,
    target ∈ components.keys → target ∈ p.cache.keys ∨ target ∈ chain
  reported : ∀ name ∈ p.cache.keys, ∀ target ∈ targetsOf components name,
    target ∉ components.keys → .unknownShape name target ∈ p.warnings
  unknown : ∀ name target, .unknownShape name target ∈ p.warnings →
    target ∈ targetsOf components name ∧ target ∉ components.keys

/-- Nothing produced is given up later. -/
structure Later (p p' : Progress) : Prop where
  cache : ∀ name ∈ p.cache.keys, name ∈ p'.cache.keys
  owners : p.graph.edges.keys <+: p'.graph.edges.keys
  warnings : ∀ w ∈ p.warnings, w ∈ p'.warnings

/-- Where nothing is produced nothing is given up. -/
theorem Later.refl (p : Progress) : Later p p := ⟨fun _ h => h, List.prefix_rfl, fun _ h => h⟩

/-- Nothing is given up in two steps, if it is not in either. -/
theorem Later.trans {p p' p'' : Progress} (h : Later p p') (h' : Later p' p'') : Later p p'' :=
  ⟨fun name hname => h'.cache name (h.cache name hname), h.owners.trans h'.owners,
    fun w hw => h'.warnings w (h.warnings w hw)⟩

/-- A warning gives nothing up. -/
theorem Later.warn (p : Progress) (w : Warning) : Later p (p.warn w) :=
  ⟨fun _ h => h, List.prefix_rfl, fun _ h => List.mem_append_left _ h⟩

/-- Nor does recording references. -/
theorem Later.recordAll (p : Progress) (name : String) (targets : List String) :
    Later p { p with graph := p.graph.recordAll name targets } := by
  refine ⟨fun _ h => h, ?_, fun _ h => h⟩
  show p.graph.edges.keys <+: (p.graph.recordAll name targets).edges.keys
  rw [ReferenceGraph.keys_recordAll]
  split
  · exact List.prefix_rfl
  · exact prefix_appendNew _ _

/-- The invariant holds before the first request. -/
theorem Valid.start : Valid components options [] .start where
  cached _ _ h := by cases h
  recorded _ := rfl
  owners _ h := absurd h List.not_mem_nil
  closed _ h := absurd h List.not_mem_nil
  reported _ h := absurd h List.not_mem_nil
  unknown _ _ h := absurd h List.not_mem_nil

variable {chain : List String} {p : Progress}

/-- A warning may be added unless it reports a target that is there. -/
theorem Valid.warn (h : Valid components options chain p) {w : Warning}
    (hw : ∀ name target, .unknownShape name target = w →
      target ∈ targetsOf components name ∧ target ∉ components.keys) :
    Valid components options chain (p.warn w) where
  cached := h.cached
  recorded := h.recorded
  owners := h.owners
  closed := h.closed
  reported name hname target htarget hunknown :=
    List.mem_append_left _ (h.reported name hname target htarget hunknown)
  unknown name target hmem := by
    rcases List.mem_append.mp hmem with hmem | hmem
    · exact h.unknown name target hmem
    · exact hw name target (List.mem_singleton.mp hmem)

/-- The first thing that happens to a component is that its targets are recorded. -/
theorem Valid.enter (h : Valid components options chain p) {name : String}
    (hchain : name ∉ chain) (hcache : name ∉ p.cache.keys) {targets : List String}
    (htargets : distinct targets = targetsOf components name) :
    Valid components options (chain ++ [name])
      { p with graph := p.graph.recordAll name targets } where
  cached := h.cached
  recorded other := by
    show (p.graph.recordAll name targets).dependencies other = _
    rw [ReferenceGraph.dependencies_recordAll]
    by_cases hother : other = name
    · have hnone : p.graph.dependencies name = [] := by
        rw [h.recorded, if_neg (not_or.mpr ⟨hchain, hcache⟩)]
      have hmem : other ∈ chain ++ [name] := List.mem_append_right _ (List.mem_singleton.mpr hother)
      rw [if_pos hother, hnone, if_pos (Or.inl hmem), hother, ← htargets, distinct]
    · rw [if_neg hother, h.recorded]
      simp [hother]
  owners := h.owners.recordAll name targets
  closed owner howner target htarget hkey :=
    (h.closed owner howner target htarget hkey).imp_right (List.mem_append_left _)
  reported := h.reported
  unknown := h.unknown

/-- The last thing that happens to a component is that its file is cached. -/
theorem Valid.leave {name : String} {file : GeneratedFile}
    (h : Valid components options (chain ++ [name]) p)
    (hfile : fileOf? components options name = some file)
    (hclosed : ∀ target ∈ targetsOf components name, target ∈ components.keys →
      target ∈ p.cache.keys ∨ target ∈ chain ++ [name])
    (hreported : ∀ target ∈ targetsOf components name, target ∉ components.keys →
      .unknownShape name target ∈ p.warnings) :
    Valid components options chain { p with cache := p.cache.insert name file } where
  cached other file' hget := by
    replace hget : (p.cache.insert name file).get? other = some file' := hget
    rw [Table.get?_insert] at hget
    by_cases hother : other = name
    · rw [if_pos hother] at hget
      rw [hother, hfile, hget]
    · rw [if_neg hother] at hget
      exact h.cached other file' hget
  recorded other := by
    show p.graph.dependencies other = _
    rw [h.recorded, Table.keys_insert]
    refine if_congr ?_ rfl rfl
    simp only [List.mem_append, List.mem_singleton, mem_appendNew]
    tauto
  owners := h.owners
  closed owner howner target htarget hkey := by
    rw [Table.keys_insert, mem_appendNew] at howner ⊢
    have hor : target ∈ p.cache.keys ∨ target ∈ chain ++ [name] := by
      rcases howner with howner | rfl
      · exact h.closed owner howner target htarget hkey
      · exact hclosed target htarget hkey
    rw [List.mem_append, List.mem_singleton] at hor
    tauto
  reported owner howner target htarget hunknown := by
    rw [Table.keys_insert, mem_appendNew] at howner
    rcases howner with howner | rfl
    · exact h.reported owner howner target htarget hunknown
    · exact hreported target htarget hunknown
  unknown := h.unknown

end Invariant

/-! ### Requests -/

/-- How a request ends: with the file from the cache, with one of two warnings, or with a new file.
For that, the targets of the component are recorded and requested first. -/
inductive Step (components : ComponentTable) (options : OutputOptions) (chain : List String)
    (name : String) (p : Progress) : Option GeneratedFile × Progress → Prop
  | cached {file : GeneratedFile} (hcache : p.cache.get? name = some file) :
      Step components options chain name p (some file, p)
  | circular (hcache : name ∉ p.cache.keys) (hchain : name ∈ chain) :
      Step components options chain name p (none, p.warn (.circular (chain ++ [name])))
  | unknown (hcache : name ∉ p.cache.keys) (hchain : name ∉ chain)
      (hunknown : name ∉ components.keys) :
      Step components options chain name p (none, p.warn (.unresolved name))
  | entered {c : Component} {targets : List String} {answer : List String × Progress}
      {file : GeneratedFile} (hcache : name ∉ p.cache.keys) (hchain : name ∉ chain)
      (hc : components.get? name = some c)
      (htargets : distinct targets = targetsOf components name)
      (hanswer : (ofComponents components options).generateAll name (chain ++ [name])
        (targetsOf components name) { p with graph := p.graph.recordAll name targets } = answer)
      (hfile : (ofComponents components options).file c (componentValidator components name c.shape)
        answer.1 = file) :
      Step components options chain name p
        (some file, { answer.2 with cache := answer.2.cache.insert name file })

/-- A request ends in one of these ways, if the chain leads to the component. -/
theorem generate_step {components : ComponentTable} {options : OutputOptions}
    {chain : List String} {name : String} {p : Progress} (h : Valid components options chain p)
    (hchain : ∀ x ∈ chain, TransGen (Refers components) x name) :
    Step components options chain name p
      ((ofComponents components options).generate chain name p) := by
  rw [generate]
  cases hcache : p.cache.get? name with
  | some file => exact .cached hcache
  | none =>
      have hnew : name ∉ p.cache.keys := Table.get?_eq_none_iff.mp hcache
      by_cases hmem : name ∈ chain
      · simp only [dif_pos hmem]
        exact .circular hnew hmem
      · simp only [dif_neg hmem]
        split
        · rename_i hnone
          exact .unknown hnew hmem (Table.get?_eq_none_iff.mp hnone)
        · rename_i c hc
          have hc : components.get? name = some c := hc
          have hv : (ofComponents components options).scope.convert (chain ++ [name]) name false
              c.shape = componentValidator components name c.shape := convert_chain hc hchain
          have htargets : distinct (recordedTargets name false
              (componentValidator components name c.shape)) = targetsOf components name := by
            rw [← hv, recordedTargets_convert_named _ (by simp), targetsOf, hc]
            split <;> rfl
          have hdependencies := (h.enter hmem hnew htargets).recorded name
          rw [if_pos (Or.inl (by simp))] at hdependencies
          rw [hv, hdependencies]
          exact .entered hnew hmem hc htargets rfl rfl

/-- What a request for one component gives. -/
structure Generated (components : ComponentTable) (options : OutputOptions) (chain : List String)
    (name : String) (p : Progress) (answer : Option GeneratedFile × Progress) : Prop where
  valid : Valid components options chain answer.2
  later : Later p answer.2
  file : name ∉ chain → answer.1 = fileOf? components options name
  cached : name ∈ components.keys → name ∈ answer.2.cache.keys ∨ name ∈ chain

/-- What requests for the targets of `owner` give. -/
structure GeneratedAll (components : ComponentTable) (options : OutputOptions) (owner : String)
    (chain targets : List String) (p : Progress) (answer : List String × Progress) : Prop where
  valid : Valid components options chain answer.2
  later : Later p answer.2
  imports : answer.1 = targets.filter components.contains
  cached : ∀ target ∈ targets, target ∈ components.keys →
    target ∈ answer.2.cache.keys ∨ target ∈ chain
  reported : ∀ target ∈ targets, target ∉ components.keys →
    .unknownShape owner target ∈ answer.2.warnings

/-- When all targets of a component have been requested, its file is complete. -/
theorem GeneratedAll.generated {components : ComponentTable} {options : OutputOptions}
    {chain targets : List String} {name : String} {c : Component} {p : Progress}
    {answer : List String × Progress} (hc : components.get? name = some c)
    (h : GeneratedAll components options name (chain ++ [name]) (targetsOf components name)
      { p with graph := p.graph.recordAll name targets } answer) :
    let file := (ofComponents components options).file c
      (componentValidator components name c.shape) answer.1
    Generated components options chain name p
      (some file, { answer.2 with cache := answer.2.cache.insert name file }) := by
  intro file
  have hfile : fileOf? components options name = some file := by
    rw [fileOf?, hc, Option.map_some, ← h.imports]
  have hlater := (Later.recordAll p name targets).trans h.later
  refine ⟨h.valid.leave hfile h.cached h.reported,
    ⟨fun other hother => ?_, hlater.owners, hlater.warnings⟩, fun _ => hfile.symm,
    fun _ => Or.inl ?_⟩
  · show other ∈ (answer.2.cache.insert name file).keys
    rw [Table.keys_insert]
    exact mem_appendNew.mpr (Or.inl (hlater.cache other hother))
  · exact Table.mem_keys_of_get? (Table.get?_insert_self _ _ _)

/-- A target that has been dealt with, before the rest of the targets. -/
theorem GeneratedAll.cons {components : ComponentTable} {options : OutputOptions}
    {owner target : String} {chain rest imports : List String} {p p₁ : Progress}
    {answer : List String × Progress}
    (h : GeneratedAll components options owner chain rest p₁ answer) (hlater : Later p p₁)
    (himports : imports = (target :: rest).filter components.contains)
    (hcached : target ∈ components.keys → target ∈ p₁.cache.keys ∨ target ∈ chain)
    (hreported : target ∉ components.keys → .unknownShape owner target ∈ p₁.warnings) :
    GeneratedAll components options owner chain (target :: rest) p (imports, answer.2) := by
  refine ⟨h.valid, hlater.trans h.later, himports, ?_, ?_⟩
  · intro t ht hkey
    rcases List.mem_cons.mp ht with rfl | ht
    · exact (hcached hkey).imp_left (h.later.cache t)
    · exact h.cached t ht hkey
  · intro t ht hunknown
    rcases List.mem_cons.mp ht with rfl | ht
    · exact h.later.warnings _ (hreported hunknown)
    · exact h.reported t ht hunknown

mutual

/-- A request for a component that the chain leads to keeps the invariant. -/
theorem generate_spec (components : ComponentTable) (options : OutputOptions)
    (chain : List String) (name : String) (p : Progress)
    (h : Valid components options chain p)
    (hchain : ∀ x ∈ chain, TransGen (Refers components) x name) :
    Generated components options chain name p
      ((ofComponents components options).generate chain name p) := by
  have hstep := generate_step h hchain
  generalize (ofComponents components options).generate chain name p = answer at hstep
  cases hstep with
  | cached hcache =>
      exact ⟨h, Later.refl p, fun _ => (h.cached name _ hcache).symm,
        fun _ => Or.inl (Table.mem_keys_of_get? hcache)⟩
  | circular _ hmem =>
      exact ⟨h.warn (nofun), Later.warn p _, fun hn => absurd hmem hn, fun _ => Or.inr hmem⟩
  | unknown _ _ hunknown =>
      refine ⟨h.warn (nofun), Later.warn p _, fun _ => ?_, fun hkey => absurd hkey hunknown⟩
      rw [fileOf?, Table.get?_eq_none_iff.mpr hunknown, Option.map_none]
  | entered hnew hmem hc htargets hanswer hfile =>
      have hall := generateAll_spec components options name (chain ++ [name])
        (targetsOf components name) _ (h.enter hmem hnew htargets)
        (fun target htarget x hx => leads_to_target hchain hx (mem_targetsOf_iff.mp htarget).1)
        (fun _ htarget => htarget)
      rw [hanswer] at hall
      exact hfile ▸ hall.generated hc
termination_by (remaining components.keys chain, 0)
decreasing_by
  exact Prod.Lex.left _ _ (remaining_append_lt (Table.mem_keys_of_get? hc) hmem)

/-- Requests for targets of the last component on the chain keep the invariant. -/
theorem generateAll_spec (components : ComponentTable) (options : OutputOptions)
    (owner : String) (chain targets : List String) (p : Progress)
    (h : Valid components options chain p)
    (hchain : ∀ target ∈ targets, ∀ x ∈ chain, TransGen (Refers components) x target)
    (htargets : ∀ target ∈ targets, target ∈ targetsOf components owner) :
    GeneratedAll components options owner chain targets p
      ((ofComponents components options).generateAll owner chain targets p) := by
  match targets, hchain, htargets with
  | [], _, _ =>
      rw [generateAll]
      exact ⟨h, Later.refl p, rfl, fun _ ht => absurd ht List.not_mem_nil,
        fun _ ht => absurd ht List.not_mem_nil⟩
  | target :: rest, hchain, htargets =>
      have hchain' : ∀ t ∈ rest, ∀ x ∈ chain, TransGen (Refers components) x t :=
        fun t ht => hchain t (List.mem_cons_of_mem _ ht)
      have htargets' : ∀ t ∈ rest, t ∈ targetsOf components owner :=
        fun t ht => htargets t (List.mem_cons_of_mem _ ht)
      rw [generateAll]
      by_cases hkey : target ∈ components.keys
      · have hcontains : (ofComponents components options).components.contains target = true :=
          Table.contains_iff.mpr hkey
        rw [if_pos hcontains]
        have hone := generate_spec components options chain target p h
          (hchain target List.mem_cons_self)
        have hall := generateAll_spec components options owner chain rest _ hone.valid
          hchain' htargets'
        refine hall.cons hone.later ?_ hone.cached fun hunknown => absurd hkey hunknown
        have hfilter := List.filter_cons_of_pos (l := rest) hcontains
        exact (congrArg (target :: ·) hall.imports).trans hfilter.symm
      · have hcontains : ¬ (ofComponents components options).components.contains target = true :=
          fun hcontains => hkey (Table.contains_iff.mp hcontains)
        rw [if_neg hcontains]
        have hwarn : Valid components options chain (p.warn (.unknownShape owner target)) := by
          refine h.warn fun name t heq => ?_
          obtain ⟨rfl, rfl⟩ := Warning.unknownShape.inj heq
          exact ⟨htargets t List.mem_cons_self, hkey⟩
        have hall := generateAll_spec components options owner chain rest _ hwarn hchain' htargets'
        refine hall.cons (Later.warn p _) ?_ (fun h => absurd h hkey) fun _ => ?_
        · have hfilter := List.filter_cons_of_neg (l := rest) hcontains
          exact hall.imports.trans hfilter.symm
        · exact List.mem_append_right _ (List.mem_singleton_self _)
termination_by (remaining components.keys chain, targets.length + 1)

end

/-! ### Runs -/

/-- Requests for several components, one after the other, with the answers to them. -/
def requests (g : ComponentGenerator) :
    List String → Progress → List (Option GeneratedFile) × Progress
  | [], p => ([], p)
  | name :: rest, p =>
    let (file, p) := g.generate [] name p
    let (files, p) := g.requests rest p
    (file :: files, p)

/-- What a run of requests gives. -/
structure Requested (components : ComponentTable) (options : OutputOptions)
    (names : List String) (p : Progress) (run : List (Option GeneratedFile) × Progress) :
    Prop where
  valid : Valid components options [] run.2
  later : Later p run.2
  answers : run.1 = names.map (fileOf? components options)
  cached : ∀ name ∈ names, name ∈ components.keys → name ∈ run.2.cache.keys

/-- A run of requests keeps the invariant, and its answers do not depend on the progress. -/
theorem requests_spec (components : ComponentTable) (options : OutputOptions)
    (names : List String) (p : Progress) (h : Valid components options [] p) :
    Requested components options names p
      ((ofComponents components options).requests names p) := by
  induction names generalizing p with
  | nil => exact ⟨h, Later.refl p, rfl, fun _ hname => absurd hname List.not_mem_nil⟩
  | cons name rest ih =>
      have hone := generate_spec components options [] name p h
        fun _ hx => absurd hx List.not_mem_nil
      have hrest := ih _ hone.valid
      refine ⟨hrest.valid, hone.later.trans hrest.later, ?_, ?_⟩
      · rw [List.map_cons, ← hrest.answers, ← hone.file List.not_mem_nil]
        rfl
      · intro other hother hkey
        rcases List.mem_cons.mp hother with rfl | hother
        · refine hrest.later.cache other ?_
          exact (hone.cached hkey).resolve_right List.not_mem_nil
        · exact hrest.cached other hother hkey

/-- Generating one after the other is a run of requests. -/
theorem foldl_generate_eq (g : ComponentGenerator) (names : List String)
    (files : List GeneratedFile) (p : Progress) :
    names.foldl (fun (files, p) name =>
        let (file, p) := g.generate [] name p
        (files ++ file.toList, p)) (files, p) =
      (files ++ (g.requests names p).1.flatMap Option.toList, (g.requests names p).2) := by
  induction names generalizing files p with
  | nil => rw [List.foldl_nil, requests, List.flatMap_nil, List.append_nil]
  | cons name rest ih =>
      rw [List.foldl_cons, ih, requests, List.flatMap_cons, List.append_assoc]

/-- Generating several components is a run of requests of which only the files are kept. -/
theorem generateEach_eq (g : ComponentGenerator) (names : List String) (p : Progress) :
    g.generateEach names p =
      ((g.requests names p).1.flatMap Option.toList, (g.requests names p).2) := by
  rw [generateEach, foldl_generate_eq, List.nil_append]

/-- The answers of a run are the files of the components that were requested. -/
theorem mem_zip_requests_iff (components : ComponentTable) (options : OutputOptions)
    (names : List String) (name : String) (answer : Option GeneratedFile) :
    (name, answer) ∈
        names.zip ((ofComponents components options).requests names .start).1 ↔
      name ∈ names ∧ answer = fileOf? components options name := by
  have hzip : (names.map id).zip (names.map (fileOf? components options)) =
      names.map fun name => (name, fileOf? components options name) :=
    List.zip_map'
  rw [List.map_id] at hzip
  rw [(requests_spec components options names .start Valid.start).answers, hzip, List.mem_map]
  constructor
  · rintro ⟨other, hother, heq⟩
    obtain ⟨rfl, rfl⟩ := Prod.mk.inj heq
    exact ⟨hother, rfl⟩
  · rintro ⟨hname, rfl⟩
    exact ⟨name, hname, rfl⟩

/-- Whatever was requested before, a request is answered with the component's file. -/
theorem generate_requests (components : ComponentTable) (options : OutputOptions)
    (names : List String) (name : String) :
    ((ofComponents components options).generate [] name
      ((ofComponents components options).requests names .start).2).1 =
        fileOf? components options name := by
  have hrun := requests_spec components options names .start Valid.start
  have hone := generate_spec components options [] name _ hrun.valid
    fun _ hx => absurd hx List.not_mem_nil
  exact hone.file List.not_mem_nil

/-! ### Tables -/

/-- Generating the table gives one file for each component, in order, whatever has been generated
before. -/
theorem generateTable_spec (components : ComponentTable) (options : OutputOptions)
    (p : Progress) (h : Valid components options [] p) :
    ((ofComponents components options).generateTable p).1.map some =
      components.keys.map (fileOf? components options) := by
  have hrun := requests_spec components options components.keys p h
  have hkeys : (ofComponents components options).components.keys = components.keys := rfl
  rw [generateTable, hkeys, generateEach_eq, hrun.answers]
  have hsome : ∀ name ∈ components.keys, (fileOf? components options name).isSome = true :=
    fun name hname => isSome_fileOf?_iff.mpr hname
  generalize components.keys = names at hsome ⊢
  induction names with
  | nil => rfl
  | cons name rest ih =>
      obtain ⟨file, hfile⟩ := Option.isSome_iff_exists.mp (hsome name List.mem_cons_self)
      rw [List.map_cons, List.flatMap_cons, hfile, Option.toList_some, List.map_append,
        ih fun other hother => hsome other (List.mem_cons_of_mem _ hother)]
      rfl

section Generated

variable {components : ComponentTable} {options : OutputOptions}

/-- A first request is answered with the component's file. -/
theorem generate_start (name : String) :
    ((ofComponents components options).generate [] name .start).1 =
      fileOf? components options name :=
  generate_requests components options [] name

/-- Generating the table gives the files of its components. -/
theorem mem_generateTable_iff {f : GeneratedFile} :
    f ∈ ((ofComponents components options).generateTable .start).1 ↔
      ∃ name ∈ components.keys, fileOf? components options name = some f := by
  rw [← List.mem_map, ← generateTable_spec components options .start Valid.start,
    List.mem_map_of_injective (Option.some_injective _)]

/-- If no two modules of components have one path, no two components have one module. -/
theorem eq_of_fileOf?_eq
    (hpaths : (((ofComponents components options).generateTable .start).1.map (·.path)).Nodup)
    {a b : String} {f : GeneratedFile} (ha : fileOf? components options a = some f)
    (hb : fileOf? components options b = some f) : a = b := by
  have hnodup : (components.keys.map (fileOf? components options)).Nodup := by
    rw [← generateTable_spec components options .start Valid.start]
    exact (List.Nodup.of_map _ hpaths).map (Option.some_injective _)
  have hkey {name : String} (h : fileOf? components options name = some f) :
      name ∈ components.keys :=
    isSome_fileOf?_iff.mp (Option.isSome_of_eq_some h)
  exact List.inj_on_of_nodup_map hnodup (hkey ha) (hkey hb) (ha.trans hb.symm)

/-- No component refers to something that is missing, and none leads back to itself. -/
structure Complete (components : ComponentTable) : Prop where
  resolved : ∀ owner target, Refers components owner target → target ∈ components.keys
  acyclic : ∀ name, ¬ TransGen (Refers components) name name

mutual

/-- A request for a component of a complete table gives no warning. -/
theorem warnings_generate (hcomplete : Complete components) (chain : List String) (name : String)
    (p : Progress) (h : Valid components options chain p)
    (hchain : ∀ x ∈ chain, TransGen (Refers components) x name) (hkey : name ∈ components.keys) :
    ((ofComponents components options).generate chain name p).2.warnings = p.warnings := by
  have hstep := generate_step h hchain
  generalize (ofComponents components options).generate chain name p = answer at hstep
  cases hstep with
  | cached => rfl
  | circular _ hmem => exact absurd (hchain name hmem) (hcomplete.acyclic name)
  | unknown _ _ hunknown => exact absurd hkey hunknown
  | entered hnew hmem hc htargets hanswer _ =>
      rw [← hanswer]
      exact warnings_generateAll hcomplete name (chain ++ [name]) (targetsOf components name) _
        (h.enter hmem hnew htargets)
        (fun target htarget x hx => leads_to_target hchain hx (mem_targetsOf_iff.mp htarget).1)
        (fun target htarget => (mem_targetsOf_iff.mp htarget).1)
termination_by (remaining components.keys chain, 0)
decreasing_by
  exact Prod.Lex.left _ _ (remaining_append_lt (Table.mem_keys_of_get? hc) hmem)

/-- Nor do requests for the targets of a component. -/
theorem warnings_generateAll (hcomplete : Complete components) (owner : String)
    (chain targets : List String) (p : Progress) (h : Valid components options chain p)
    (hchain : ∀ target ∈ targets, ∀ x ∈ chain, TransGen (Refers components) x target)
    (htargets : ∀ target ∈ targets, Refers components owner target) :
    ((ofComponents components options).generateAll owner chain targets p).2.warnings =
      p.warnings := by
  match targets, hchain, htargets with
  | [], _, _ => rw [generateAll]
  | target :: rest, hchain, htargets =>
      have hkey : target ∈ components.keys :=
        hcomplete.resolved _ _ (htargets target List.mem_cons_self)
      have hcontains : (ofComponents components options).components.contains target = true :=
        Table.contains_iff.mpr hkey
      have hone := generate_spec components options chain target p h
        (hchain target List.mem_cons_self)
      have hfirst := warnings_generate hcomplete chain target p h
        (hchain target List.mem_cons_self) hkey
      have hrest := warnings_generateAll hcomplete owner chain rest _ hone.valid
        (fun t ht => hchain t (List.mem_cons_of_mem _ ht))
        (fun t ht => htargets t (List.mem_cons_of_mem _ ht))
      rw [generateAll, if_pos hcontains]
      exact hrest.trans hfirst
termination_by (remaining components.keys chain, targets.length + 1)

end

/-- A complete table is generated without a warning. -/
theorem warnings_generateTable (hcomplete : Complete components) :
    ((ofComponents components options).generateTable .start).2.warnings = [] := by
  have hall : ∀ (names : List String) (p : Progress), Valid components options [] p →
      (∀ name ∈ names, name ∈ components.keys) →
      ((ofComponents components options).requests names p).2.warnings = p.warnings := by
    intro names
    induction names with
    | nil => exact fun _ _ _ => rfl
    | cons name rest ih =>
        intro p h hnames
        have hchain : ∀ x ∈ [], TransGen (Refers components) x name :=
          fun _ hx => absurd hx List.not_mem_nil
        have hone := generate_spec components options [] name p h hchain
        have hrest : ∀ other ∈ rest, other ∈ components.keys := fun other hother =>
          hnames other (List.mem_cons_of_mem _ hother)
        exact (ih _ hone.valid hrest).trans
          (warnings_generate hcomplete [] name p h hchain (hnames name List.mem_cons_self))
  rw [generateTable, generateEach_eq]
  exact hall components.keys .start Valid.start fun _ h => h

/-- Generating the table reports each missing target of each component that has a name. -/
theorem unknownShape_mem_warnings_iff {owner target : String} :
    .unknownShape owner target ∈
        ((ofComponents components options).generateTable .start).2.warnings ↔
      owner ≠ "" ∧ Refers components owner target ∧ target ∉ components.keys := by
  have hrun := requests_spec components options components.keys .start Valid.start
  rw [generateTable, generateEach_eq]
  constructor
  · intro hmem
    obtain ⟨htarget, hunknown⟩ := hrun.valid.unknown owner target hmem
    obtain ⟨hrefers, howner, -⟩ := mem_targetsOf_iff.mp htarget
    exact ⟨howner, hrefers, hunknown⟩
  · rintro ⟨howner, hrefers, hunknown⟩
    have hkey : owner ∈ components.keys := hrefers.mem_keys
    have hne : target ≠ owner := fun heq => hunknown (heq ▸ hkey)
    exact hrun.valid.reported owner (hrun.cached owner hkey hkey) target
      (mem_targetsOf_iff.mpr ⟨hrefers, howner, hne⟩) hunknown

end Generated

/-! ### Orders of requests -/

/-- **The order of requests does not matter.** Two runs of requests for components give the same
file for the same name. A request is answered with a file exactly if the name is a component. After
any run, generating the table gives one file for each component, in the order of the table, and it
is the file that a first request for the component gives. -/
theorem requests_agree (components : ComponentTable) (options : OutputOptions)
    (names names' : List String) :
    let g := ofComponents components options
    let run := g.requests names .start
    let run' := g.requests names' .start
    run.1.length = names.length ∧
      (∀ name file file', (name, some file) ∈ names.zip run.1 →
        (name, some file') ∈ names'.zip run'.1 → file = file') ∧
      (∀ name answer, (name, answer) ∈ names.zip run.1 →
        (answer.isSome = true ↔ name ∈ components.keys)) ∧
      (g.generateTable run.2).1.map some =
        components.keys.map fun name => (g.generate [] name .start).1 := by
  intro g run run'
  have hrun := requests_spec components options names .start Valid.start
  refine ⟨?_, ?_, ?_, ?_⟩
  · rw [show run.1 = names.map _ from hrun.answers, List.length_map]
  · intro name file file' hfile hfile'
    obtain ⟨-, hfile⟩ := (mem_zip_requests_iff components options names name _).mp hfile
    obtain ⟨-, hfile'⟩ := (mem_zip_requests_iff components options names' name _).mp hfile'
    exact Option.some.inj (hfile.trans hfile'.symm)
  · intro name answer hanswer
    obtain ⟨-, rfl⟩ := (mem_zip_requests_iff components options names name answer).mp hanswer
    exact isSome_fileOf?_iff
  · rw [generateTable_spec components options run.2 hrun.valid]
    exact List.map_congr_left fun name _ => (generate_start name).symm

/-- Two components that refer to each other, requested in both orders: either order gives a file
for the first, and both files are the same. -/
theorem requests_agree_cycle :
    let components : ComponentTable := .ofList
      [("A", ⟨"A", none, .reference "B"⟩), ("B", ⟨"B", none, .reference "A"⟩)]
    let g := ofComponents components .default
    ∃ file, ("A", some file) ∈ ["A", "B"].zip (g.requests ["A", "B"] .start).1 ∧
      ("A", some file) ∈ ["B", "A"].zip (g.requests ["B", "A"] .start).1 := by
  intro components g
  have hkey : "A" ∈ components.keys := by decide
  obtain ⟨hlength, hagree, hanswer, -⟩ :=
    requests_agree components .default ["A", "B"] ["B", "A"]
  obtain ⟨hlength', -, hback, -⟩ := requests_agree components .default ["B", "A"] ["A", "B"]
  obtain ⟨x, y, hrun⟩ := List.length_eq_two.mp hlength
  obtain ⟨y', x', hrun'⟩ := List.length_eq_two.mp hlength'
  have hmem : ("A", x) ∈ ["A", "B"].zip (g.requests ["A", "B"] .start).1 := by
    rw [hrun]
    exact List.mem_cons_self
  have hmem' : ("A", x') ∈ ["B", "A"].zip (g.requests ["B", "A"] .start).1 := by
    rw [hrun']
    exact List.mem_cons_of_mem _ List.mem_cons_self
  obtain ⟨file, rfl⟩ := Option.isSome_iff_exists.mp ((hanswer "A" x hmem).mpr hkey)
  obtain ⟨file', rfl⟩ := Option.isSome_iff_exists.mp ((hback "A" x' hmem').mpr hkey)
  have heq : file = file' := hagree "A" file file' hmem hmem'
  exact ⟨file, hmem, heq ▸ hmem'⟩

end ComponentGenerator

end OpenApiZod
