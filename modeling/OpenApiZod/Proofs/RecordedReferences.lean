import OpenApiZod.Compilation
import OpenApiZod.Proofs.Generation
import OpenApiZod.Proofs.Tables

/-!
# The references that generation records

A compilation returns the references that conversion has recorded on the way. Each component is
converted once, and with itself on the chain, so what is recorded against it is what its shape says:
the names that it refers to, in the order in which they first come, without its own name
(`dependencies_generateTable`).

So the graph of a compilation is the graph of the table without loops, except that a component
without a name owns no references (`dependencies_compile`).
-/

namespace OpenApiZod

/-! ### The graph of a table -/

/-- Recording the references of components one after the other adds to each component its own. -/
theorem ReferenceGraph.dependencies_foldl_recordAll (entries : List (String × Component))
    (hnodup : (entries.map Prod.fst).Nodup) (g : ReferenceGraph) (name : String) :
    (entries.foldl (fun g e => g.recordAll e.1 e.2.shape.references) g).dependencies name =
      extendNew (g.dependencies name)
        (((entries.lookup name).map (·.shape.references)).getD []) := by
  induction entries generalizing g with
  | nil => rfl
  | cons e rest ih =>
      simp only [List.map_cons, List.nodup_cons] at hnodup
      rw [List.foldl_cons, ih hnodup.2, Table.lookup_entry, dependencies_recordAll]
      by_cases hname : name = e.1
      · rw [if_pos hname, if_pos hname, hname, Table.lookup_eq_none_of_not_mem hnodup.1]
        rfl
      · rw [if_neg hname, if_neg hname]

/-- In the graph of a table, a component's targets are the names that its shape refers to, each
where it first comes. -/
theorem ReferenceGraph.dependencies_ofComponents (components : ComponentTable) (name : String) :
    (ofComponents components).dependencies name =
      distinct (((components.get? name).map (·.shape.references)).getD []) :=
  dependencies_foldl_recordAll components.entries components.nodup .empty name

/-- The targets of a component are those in the graph of the table, without the component. -/
theorem targetsOf_eq_filter (components : ComponentTable) {name : String} (hname : name ≠ "") :
    targetsOf components name =
      ((ReferenceGraph.ofComponents components).dependencies name).filter (· ≠ name) := by
  have hempty : name.isEmpty = false := by simp [hname]
  rw [ReferenceGraph.dependencies_ofComponents, targetsOf]
  cases components.get? name with
  | none => rfl
  | some c =>
      simp only [hempty, Bool.false_eq_true, if_false, Option.map_some, Option.getD_some]
      exact distinct_filter _ _

/-! ### The graph of a run -/

namespace ComponentGenerator

section Table

variable {components : ComponentTable} {options : OutputOptions}

/-- Generating the table records the targets of each component. -/
theorem dependencies_generateTable (name : String) :
    ((ofComponents components options).generateTable .start).2.graph.dependencies name =
      targetsOf components name := by
  have hrun := requests_spec components options components.keys .start Valid.start
  rw [generateTable, generateEach_eq]
  show ((ofComponents components options).requests components.keys .start).2.graph.dependencies
    name = _
  rw [hrun.valid.recorded]
  split
  · rfl
  · rename_i hnew
    have hunknown : name ∉ components.keys := fun hkey =>
      hnew (Or.inr (hrun.cached name hkey hkey))
    rw [targetsOf_eq_nil hunknown]

/-- Generating the table makes owners of the components that have targets, and of no other names. -/
theorem mem_keys_generateTable_iff {name : String} :
    name ∈ ((ofComponents components options).generateTable .start).2.graph.edges.keys ↔
      targetsOf components name ≠ [] := by
  rw [← @dependencies_generateTable components options name]
  constructor
  · intro howner
    have hrun := requests_spec components options components.keys .start Valid.start
    rw [generateTable, generateEach_eq] at howner ⊢
    exact hrun.valid.owners name howner
  · intro hne
    obtain ⟨target, htarget⟩ := List.exists_mem_of_ne_nil _ hne
    exact ReferenceGraph.mem_keys_of_edge htarget

end Table

end ComponentGenerator

/-- The graph of a compilation is the one that the component table leaves. -/
theorem Api.dependencies_compile_eq (api : Api) (options : OutputOptions) :
    (api.compile options).dependencies =
      ((ComponentGenerator.ofComponents api.components options).generateTable .start).2.graph := by
  rw [compile]

/-- **The graph of a compilation.** A component that has a name depends on the names that its own
shape refers to, components or not, each once and in the order in which they first come, without
itself. These are its targets in the graph of the table, apart from a loop. Nobody owns references
but the components that have a name and refer to another one. -/
theorem dependencies_compile (api : Api) (options : OutputOptions) :
    let g := (api.compile options).dependencies
    let table := ReferenceGraph.ofComponents api.components
    (∀ name c, api.components.get? name = some c → name ≠ "" →
      g.dependencies name = (distinct c.shape.references).filter (· ≠ name) ∧
        g.dependencies name = (table.dependencies name).filter (· ≠ name) ∧
        (∀ target, target ∈ g.dependencies name ↔
          target ∈ c.shape.references ∧ target ≠ name) ∧
        (g.dependencies name).Pairwise fun a b =>
          c.shape.references.idxOf a < c.shape.references.idxOf b) ∧
      ∀ owner, owner ∈ g.edges.keys ↔
        owner ≠ "" ∧ ∃ target, Refers api.components owner target ∧ target ≠ owner := by
  intro g table
  have hg : g = ((ComponentGenerator.ofComponents api.components options).generateTable
      .start).2.graph := api.dependencies_compile_eq options
  have hdependencies (name : String) : g.dependencies name = targetsOf api.components name := by
    rw [hg, ComponentGenerator.dependencies_generateTable]
  refine ⟨fun name c hc hname => ?_, fun owner => ?_⟩
  · have htable : table.dependencies name = distinct c.shape.references := by
      rw [ReferenceGraph.dependencies_ofComponents, hc]
      rfl
    have heq : g.dependencies name = (distinct c.shape.references).filter (· ≠ name) := by
      rw [hdependencies, targetsOf_eq_filter _ hname]
      exact congrArg (List.filter _) htable
    refine ⟨heq, ?_, fun target => ?_, ?_⟩
    · rw [heq, htable]
    · rw [heq, List.mem_filter, mem_distinct, decide_eq_true_eq]
    · rw [heq]
      exact (pairwise_idxOf_distinct _).filter _
  · rw [hg, ComponentGenerator.mem_keys_generateTable_iff]
    constructor
    · intro hne
      obtain ⟨target, htarget⟩ := List.exists_mem_of_ne_nil _ hne
      obtain ⟨hrefers, howner, htarget⟩ := mem_targetsOf_iff.mp htarget
      exact ⟨howner, target, hrefers, htarget⟩
    · rintro ⟨howner, target, hrefers, htarget⟩
      exact List.ne_nil_of_mem (mem_targetsOf_iff.mpr ⟨hrefers, howner, htarget⟩)

/-- `A` refers to itself, twice to `B`, which refers back to `A`, and to a missing shape; a
component without a name refers to `A`. -/
theorem dependencies_compile_cycle :
    let components : ComponentTable := .ofList
      [("", ⟨"", none, .reference "A"⟩),
        ("A", ⟨"A", none, .object [("self", .reference "A"), ("b", .reference "B"),
          ("ghost", .reference "Ghost"), ("again", .reference "B")] [] .unspecified⟩),
        ("B", ⟨"B", none, .reference "A"⟩)]
    let g := ((⟨⟨"Pets", "1"⟩, components, .empty⟩ : Api).compile .default).dependencies
    g.dependencies "A" = ["B", "Ghost"] ∧ g.dependencies "B" = ["A"] ∧ "" ∉ g.edges.keys := by
  intro components g
  obtain ⟨hnamed, howners⟩ := dependencies_compile ⟨⟨"Pets", "1"⟩, components, .empty⟩ .default
  refine ⟨?_, ?_, fun h => ((howners "").mp h).1 rfl⟩
  · rw [(hnamed "A" _ rfl (by decide)).1]
    decide
  · rw [(hnamed "B" _ rfl (by decide)).1]
    decide

end OpenApiZod
