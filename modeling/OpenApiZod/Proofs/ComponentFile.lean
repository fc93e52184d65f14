import OpenApiZod.Module.Component
import OpenApiZod.Proofs.Conversion

/-!
# Files of component modules

What stands in the module of a component does not depend on what has been generated before it.
`componentValidator` is its validator, `targetsOf` lists the other shapes that it refers to, and
`fileOf?` is its file.

The names on the chain of a generation matter to conversion: references to them are deferred. But
the chain is a path of the references written in the table, so a reference back to it closes a
cycle, and references inside cycles are deferred anyway (`convert_chain`).
-/

open Relation

namespace OpenApiZod

/-! ### References written in a table -/

/-- Recording the references of components adds their edges and no others. -/
theorem ReferenceGraph.edge_foldl_recordAll_iff (entries : List (String × Component))
    (g : ReferenceGraph) (a b : String) :
    (entries.foldl (fun g e => g.recordAll e.1 e.2.shape.references) g).Edge a b ↔
      g.Edge a b ∨ ∃ c, (a, c) ∈ entries ∧ b ∈ c.shape.references := by
  induction entries generalizing g with
  | nil => simp
  | cons e entries ih =>
      obtain ⟨name, c⟩ := e
      rw [List.foldl_cons, ih, edge_recordAll_iff, or_assoc]
      refine or_congr_right ?_
      constructor
      · rintro (⟨rfl, hb⟩ | ⟨c', hmem, hb⟩)
        · exact ⟨c, List.mem_cons_self, hb⟩
        · exact ⟨c', List.mem_cons_of_mem _ hmem, hb⟩
      · rintro ⟨c', hmem, hb⟩
        rcases List.mem_cons.mp hmem with heq | hmem
        · obtain ⟨rfl, rfl⟩ := Prod.mk.inj heq
          exact Or.inl ⟨rfl, hb⟩
        · exact Or.inr ⟨c', hmem, hb⟩

/-- The graph of a table has one edge for each written reference. -/
theorem ReferenceGraph.edge_ofComponents (components : ComponentTable) :
    (ofComponents components).Edge = Refers components := by
  funext a b
  refine propext ?_
  rw [ofComponents, edge_foldl_recordAll_iff]
  simp only [Table.mem_entries_iff, Refers]
  exact or_iff_right List.not_mem_nil

/-- Two names share a cycle of the table's graph exactly if each leads to the other. -/
theorem shared_cycleGroups_ofComponents_iff (components : ComponentTable) (a b : String) :
    (ReferenceGraph.ofComponents components).cycleGroups.shared a b = true ↔
      TransGen (Refers components) a b ∧ TransGen (Refers components) b a := by
  rw [ReferenceGraph.shared_cycleGroups_iff, ReferenceGraph.Reaches, ReferenceGraph.Reaches,
    ReferenceGraph.edge_ofComponents]

/-- A component shares a cycle with what it refers to exactly if that leads back to it. -/
theorem shared_cycleGroups_iff_leads_back {components : ComponentTable} {name target : String}
    (hrefers : Refers components name target) :
    (ReferenceGraph.ofComponents components).cycleGroups.shared name target = true ↔
      ReflTransGen (Refers components) target name := by
  rw [shared_cycleGroups_ofComponents_iff]
  constructor
  · exact fun h => h.2.to_reflTransGen
  · intro h
    rcases reflTransGen_iff_eq_or_transGen.mp h with heq | h
    · exact ⟨TransGen.single hrefers, TransGen.single (heq ▸ hrefers)⟩
    · exact ⟨TransGen.single hrefers, h⟩

/-! ### Validators and targets -/

/-- The validator of a component's shape: references inside a cycle are deferred, all others are
not. -/
def componentValidator (components : ComponentTable) (name : String) (shape : Shape) :
    Validator :=
  .ofShape (fun target =>
    if (ReferenceGraph.ofComponents components).cycleGroups.shared name target then
      .deferred target
    else .reference target) shape

/-- The other shapes that a component refers to, each once. None are known of a component whose
name is empty. -/
def targetsOf (components : ComponentTable) (name : String) : List String :=
  match components.get? name with
  | some c => if name.isEmpty then [] else distinct (c.shape.references.filter (· ≠ name))
  | none => []

/-- What is no component has no targets. -/
theorem targetsOf_eq_nil {components : ComponentTable} {name : String}
    (h : name ∉ components.keys) : targetsOf components name = [] := by
  rw [targetsOf, Table.get?_eq_none_iff.mpr h]

/-- The targets of a component are what it refers to, itself apart. -/
theorem mem_targetsOf_iff {components : ComponentTable} {name target : String} :
    target ∈ targetsOf components name ↔
      Refers components name target ∧ name ≠ "" ∧ target ≠ name := by
  rw [targetsOf, Refers]
  cases components.get? name with
  | none => simp
  | some c =>
      by_cases hname : name = ""
      · simp [hname]
      · simp [hname]

/-- On a chain that leads to `name`, conversion defers the references inside cycles and no
others: a reference back to the chain closes a cycle. -/
theorem convert_chain {components : ComponentTable} {chain : List String} {name : String}
    {c : Component} (hc : components.get? name = some c)
    (hchain : ∀ x ∈ chain, TransGen (Refers components) x name) :
    Scope.convert ⟨components, some (ReferenceGraph.ofComponents components).cycleGroups⟩
      (chain ++ [name]) name false c.shape = componentValidator components name c.shape := by
  rw [Scope.convert_named, componentValidator]
  refine Validator.ofShape_congr c.shape fun target htarget => ?_
  have hrefers : Refers components name target := ⟨c, hc, htarget⟩
  have hback : target ∈ chain ++ [name] → TransGen (Refers components) target name := by
    intro hmem
    rcases List.mem_append.mp hmem with hmem | hmem
    · exact hchain target hmem
    · have hself : target = name := List.mem_singleton.mp hmem
      exact TransGen.single (hself ▸ hrefers)
  have hiff : Scope.Defers
      ⟨components, some (ReferenceGraph.ofComponents components).cycleGroups⟩
      (chain ++ [name]) name target ↔
        (ReferenceGraph.ofComponents components).cycleGroups.shared name target = true := by
    constructor
    · rintro (hmem | hshared)
      · exact (shared_cycleGroups_ofComponents_iff _ _ _).mpr
          ⟨TransGen.single hrefers, hback hmem⟩
      · exact hshared
    · exact Or.inr
  by_cases h : (ReferenceGraph.ofComponents components).cycleGroups.shared name target = true
  · rw [if_pos h, if_pos (hiff.mpr h)]
  · rw [if_neg h, if_neg fun hdefers => h (hiff.mp hdefers)]

/-- A component's validator uses what the shape refers to; a use is deferred exactly if its target
leads back to the component. -/
theorem uses_componentValidator {components : ComponentTable} {name : String} {c : Component}
    (hc : components.get? name = some c) :
    (componentValidator components name c.shape).uses.map (·.target) = c.shape.references ∧
      ∀ use ∈ (componentValidator components name c.shape).uses,
        (use.deferred = true ↔ ReflTransGen (Refers components) use.target name) := by
  have huses : (componentValidator components name c.shape).uses =
      c.shape.references.map fun target => ⟨target,
        (ReferenceGraph.ofComponents components).cycleGroups.shared name target⟩ := by
    rw [componentValidator, Validator.uses_ofShape, List.map_eq_flatMap]
    refine congrArg (List.flatMap · c.shape.references) (funext fun target => ?_)
    split
    · rename_i h
      rw [Validator.uses, h]
    · rename_i h
      rw [Validator.uses, Bool.eq_false_iff.mpr h]
  refine ⟨?_, ?_⟩
  · rw [huses, List.map_map]
    exact List.map_id _
  · intro use huse
    rw [huses] at huse
    obtain ⟨target, htarget, rfl⟩ := List.mem_map.mp huse
    exact shared_cycleGroups_iff_leads_back ⟨c, hc, htarget⟩

/-! ### Files -/

namespace GeneratedFile

/-- The uses of components in a file. -/
def uses (f : GeneratedFile) : List Validator.Use :=
  match f.artifact with
  | .module m => m.declarations.flatMap (·.validator.uses)
  | .index _ => []

/-- The components that a file imports. -/
def imports (f : GeneratedFile) : List String :=
  match f.artifact with
  | .module m => m.imports.map (·.component)
  | .index _ => []

end GeneratedFile

namespace ComponentGenerator

/-- The file of a component, whatever has been generated before it. -/
def fileOf? (components : ComponentTable) (options : OutputOptions) (name : String) :
    Option GeneratedFile :=
  (components.get? name).map fun c =>
    (ofComponents components options).file c (componentValidator components name c.shape)
      ((targetsOf components name).filter components.contains)

/-- The file of a component holds its validator, and imports those of its targets that are
components. -/
theorem eq_file_of_fileOf? {components : ComponentTable} {options : OutputOptions} {name : String}
    {file : GeneratedFile} (h : fileOf? components options name = some file) :
    ∃ c, components.get? name = some c ∧
      (ofComponents components options).file c (componentValidator components name c.shape)
        ((targetsOf components name).filter components.contains) = file :=
  Option.map_eq_some_iff.mp h

/-- The components are what has a file. -/
theorem isSome_fileOf?_iff {components : ComponentTable} {options : OutputOptions}
    {name : String} : (fileOf? components options name).isSome = true ↔ name ∈ components.keys := by
  rw [fileOf?, Option.isSome_map, Table.mem_keys_iff, Option.isSome_iff_exists]

section Contents

variable {components : ComponentTable} {options : OutputOptions} {name : String}
  {file : GeneratedFile}

/-- The file of a component uses what its validator uses. -/
theorem uses_fileOf? (h : fileOf? components options name = some file) :
    ∃ c, components.get? name = some c ∧
      file.uses = (componentValidator components name c.shape).uses := by
  obtain ⟨c, hc, rfl⟩ := eq_file_of_fileOf? h
  exact ⟨c, hc, List.flatMap_singleton _ _⟩

/-- It imports those of its targets that are components. -/
theorem imports_fileOf? (h : fileOf? components options name = some file) :
    file.imports = (targetsOf components name).filter components.contains := by
  obtain ⟨c, -, rfl⟩ := eq_file_of_fileOf? h
  show (List.map _ ((targetsOf components name).filter components.contains)).map _ = _
  rw [List.map_map]
  exact List.map_id _

/-- So it uses exactly what the component refers to. -/
theorem mem_uses_fileOf?_iff (h : fileOf? components options name = some file)
    {target : String} :
    (∃ use ∈ file.uses, use.target = target) ↔ Refers components name target := by
  obtain ⟨c, hc, huses⟩ := uses_fileOf? h
  rw [huses, ← List.mem_map, (uses_componentValidator hc).1]
  constructor
  · exact fun hmem => ⟨c, hc, hmem⟩
  · rintro ⟨c', hc', hmem⟩
    rw [hc] at hc'
    exact Option.some.inj hc' ▸ hmem

/-- And it imports of that what is there, itself apart. -/
theorem mem_imports_fileOf?_iff (h : fileOf? components options name = some file)
    {target : String} :
    target ∈ file.imports ↔
      (Refers components name target ∧ name ≠ "" ∧ target ≠ name) ∧ target ∈ components.keys := by
  rw [imports_fileOf? h, List.mem_filter, mem_targetsOf_iff, Table.contains_iff]

end Contents

end ComponentGenerator

end OpenApiZod
