import Mathlib.Data.List.TakeWhile
import OpenApiZod.Proofs.MissingShapes
import OpenApiZod.Proofs.RecordedReferences
import OpenApiZod.Proofs.Walk
import OpenApiZod.Summary

/-!
# Cycles that generation warns about

Generation and the walk that lists the cycles of a graph are two searches. One requests components
in the order of their table and passes over those that are cached; the other starts from the owners
of the recorded graph and passes over the names that it has visited.

`Follows` relates the two. Names without targets do not matter to it: a request for one records
nothing and a walk to one closes nothing, so either may come alone. Every other request is matched
by a step of the walk, with the same chain and through the same targets (`generate_follows`). Since
a component becomes an owner when it is first requested, the walk's owners come in the right order,
and those that a request has led to are visited by then (`requests_follow`).

So the cycles that the warnings close are the cycles of the graph, one by one and in the same order
(`circularChains_eq_cycles`).
-/

open Relation

namespace OpenApiZod

/-! ### Chains of warnings -/

/-- The chains of the warnings about circular references, in order. -/
def circularChains (warnings : List Warning) : List (List String) :=
  warnings.filterMap fun
    | .circular chain => some chain
    | _ => none

/-- The cycle that a chain closes: from where its last name first stands, without the repetition of
that name. -/
def closedCycle (chain : List String) : List String :=
  (chain.dropWhile (some · ≠ chain.getLast?)).dropLast

/-- The chains of two lists of warnings are those of the one and those of the other. -/
theorem circularChains_append (ws ws' : List Warning) :
    circularChains (ws ++ ws') = circularChains ws ++ circularChains ws' :=
  List.filterMap_append

/-- There are no chains where no warning has one. -/
theorem circularChains_eq_nil {ws : List Warning} (h : ∀ chain, .circular chain ∉ ws) :
    circularChains ws = [] := by
  rw [circularChains, List.filterMap_eq_nil_iff]
  intro w hw
  cases w with
  | circular chain => exact absurd hw (h chain)
  | unresolved | invalidReference | unknownShape | renamed | repeatedPath => rfl

/-- A path with one of its names once more at its end closes the path's part from that name on. -/
theorem closedCycle_append {path : List String} {name : String} (h : name ∈ path) :
    closedCycle (path ++ [name]) = path.dropWhile (· ≠ name) := by
  have hstop : (fun x => decide (some x ≠ (path ++ [name]).getLast?)) =
      fun x => decide (x ≠ name) := by
    funext x
    simp
  have hne : (path.dropWhile (· ≠ name)).isEmpty = false := by
    rw [Bool.eq_false_iff, ne_eq, List.isEmpty_iff, List.dropWhile_eq_nil_iff]
    exact fun hall => of_decide_eq_true (hall name h) rfl
  rw [closedCycle, hstop, List.dropWhile_append, hne]
  exact List.dropLast_concat

example : closedCycle ["A", "B", "C", "B"] = ["B", "C"] := by decide

/-! ### Generation and the walk -/

namespace ComponentGenerator

/-- A walk has come as far as generation. Names that are being generated are not cached, the names
that have targets and are cached or being generated are those that the walk has visited, and both
have closed the same cycles. -/
structure Follows (components : ComponentTable) (chain : List String) (p : Progress)
    (w : ReferenceGraph.Walk) : Prop where
  pending : ∀ name ∈ chain, name ∉ p.cache.keys
  visited : ∀ name, targetsOf components name ≠ [] →
    (name ∈ w.visited ↔ name ∈ p.cache.keys ∨ name ∈ chain)
  cycles : w.cycles = (circularChains p.warnings).map closedCycle

section Steps

variable {components : ComponentTable} {options : OutputOptions} {chain : List String}
  {name : String} {p : Progress} {w : ReferenceGraph.Walk}

/-- Other warnings do not matter. -/
theorem Follows.warn (h : Follows components chain p w) {warning : Warning}
    (hwarning : ∀ chain, .circular chain ≠ warning) :
    Follows components chain (p.warn warning) w := by
  refine ⟨h.pending, h.visited, ?_⟩
  have hnil : circularChains [warning] = [] :=
    circularChains_eq_nil fun chain hmem => hwarning chain (List.mem_singleton.mp hmem)
  show w.cycles = (circularChains (p.warnings ++ [warning])).map closedCycle
  rw [circularChains_append, hnil, List.append_nil]
  exact h.cycles

/-- A component is put on the chain, and the walk goes to its name. -/
theorem Follows.enter (h : Follows components chain p w) (hnew : name ∉ p.cache.keys)
    (graph : ReferenceGraph) :
    Follows components (chain ++ [name]) { p with graph }
      { w with visited := w.visited ++ [name] } where
  pending x hx := by
    rcases List.mem_append.mp hx with hx | hx
    · exact h.pending x hx
    · rw [List.mem_singleton.mp hx]
      exact hnew
  visited x hx := by
    show x ∈ w.visited ++ [name] ↔ x ∈ p.cache.keys ∨ x ∈ chain ++ [name]
    rw [List.mem_append, List.mem_append, h.visited x hx, or_assoc]
  cycles := h.cycles

/-- A component is taken from the chain and cached. -/
theorem Follows.leave (h : Follows components (chain ++ [name]) p w) (hmem : name ∉ chain)
    (file : GeneratedFile) :
    Follows components chain { p with cache := p.cache.insert name file } w where
  pending x hx := by
    rw [Table.keys_insert, mem_appendNew, not_or]
    exact ⟨h.pending x (List.mem_append_left _ hx), fun heq => hmem (heq ▸ hx)⟩
  visited x hx := by
    rw [h.visited x hx, Table.keys_insert, mem_appendNew, List.mem_append, List.mem_singleton]
    tauto
  cycles := h.cycles

/-- A component without targets is cached. -/
theorem Follows.cacheLeaf (h : Follows components chain p w) (hmem : name ∉ chain)
    (hleaf : targetsOf components name = []) (file : GeneratedFile) :
    Follows components chain { p with cache := p.cache.insert name file } w where
  pending x hx := by
    rw [Table.keys_insert, mem_appendNew, not_or]
    exact ⟨h.pending x hx, fun heq => hmem (heq ▸ hx)⟩
  visited x hx := by
    have hne : x ≠ name := fun heq => hx (heq ▸ hleaf)
    rw [h.visited x hx, Table.keys_insert, mem_appendNew, or_iff_left hne]
  cycles := h.cycles

/-- The walk visits a name without targets. -/
theorem Follows.visitLeaf (h : Follows components chain p w)
    (hleaf : targetsOf components name = []) :
    Follows components chain p { w with visited := w.visited ++ [name] } where
  pending := h.pending
  visited x hx := by
    have hne : x ≠ name := fun heq => hx (heq ▸ hleaf)
    show x ∈ w.visited ++ [name] ↔ _
    rw [List.mem_append, List.mem_singleton, or_iff_left hne]
    exact h.visited x hx
  cycles := h.cycles

/-- A request for a component that is cached or has no targets records nothing and closes no
cycle. -/
theorem Follows.generate_idle (h : Follows components chain p w)
    (hvalid : Valid components options chain p)
    (hchain : ∀ x ∈ chain, TransGen (Refers components) x name) (hmem : name ∉ chain)
    (hidle : targetsOf components name = [] ∨ name ∈ p.cache.keys) :
    Follows components chain ((ofComponents components options).generate chain name p).2 w ∧
      ((ofComponents components options).generate chain name p).2.graph = p.graph := by
  have hstep := generate_step hvalid hchain
  generalize (ofComponents components options).generate chain name p = answer at hstep
  cases hstep with
  | cached _ => exact ⟨h, rfl⟩
  | circular _ hback => exact absurd hback hmem
  | unknown _ _ _ => exact ⟨h.warn (nofun), rfl⟩
  | entered hnew _ _ htargets hanswer _ =>
      have hleaf : targetsOf components name = [] := hidle.resolve_right hnew
      obtain rfl := distinct_eq_nil_iff.mp (htargets.trans hleaf)
      rw [hleaf, generateAll] at hanswer
      subst hanswer
      exact ⟨h.cacheLeaf hmem hleaf _, rfl⟩

/-- A walk to a name that is visited or has no targets closes no cycle. -/
theorem Follows.walk_idle (h : Follows components chain p w) {g : ReferenceGraph}
    (hg : ∀ name, g.dependencies name = targetsOf components name) (hmem : name ∉ chain)
    (hidle : targetsOf components name = [] ∨ name ∈ p.cache.keys) :
    Follows components chain p (g.walk g.names chain [name] w) := by
  by_cases hvisited : name ∈ w.visited
  · rw [g.walk_visited g.names chain hmem hvisited]
    exact h
  have hleaf : targetsOf components name = [] := by
    by_contra hne
    exact hvisited ((h.visited name hne).mpr (Or.inl (hidle.resolve_left hne)))
  by_cases hname : name ∈ g.names
  · rw [g.walk_new g.names chain hmem hvisited hname, hg, hleaf, g.walk_nil]
    exact h.visitLeaf hleaf
  · rw [g.walk_foreign g.names chain hmem hname]
    exact h

/-- A request for a name on the chain and the walk's way back to it close one cycle. -/
theorem Follows.back (h : Follows components chain p w) (hmem : name ∈ chain)
    (g : ReferenceGraph) :
    Follows components chain (p.warn (.circular (chain ++ [name])))
      (g.walk g.names chain [name] w) := by
  rw [g.walk_back g.names chain hmem]
  refine ⟨h.pending, h.visited, ?_⟩
  show w.cycles ++ [chain.dropWhile (· ≠ name)] =
    (circularChains (p.warnings ++ [.circular (chain ++ [name])])).map closedCycle
  rw [circularChains_append, List.map_append, h.cycles, ← closedCycle_append hmem]
  rfl

end Steps

mutual

/-- A request and a walk to its name keep together. -/
theorem generate_follows (components : ComponentTable) (options : OutputOptions)
    (g : ReferenceGraph) (hg : ∀ name, g.dependencies name = targetsOf components name)
    (chain : List String) (name : String) (p : Progress) (w : ReferenceGraph.Walk)
    (hvalid : Valid components options chain p)
    (hchain : ∀ x ∈ chain, TransGen (Refers components) x name)
    (h : Follows components chain p w) :
    Follows components chain ((ofComponents components options).generate chain name p).2
      (g.walk g.names chain [name] w) := by
  -- An idle request goes with an idle step of the walk, though neither needs the other.
  by_cases hidle : name ∉ chain ∧ (targetsOf components name = [] ∨ name ∈ p.cache.keys)
  · exact ((h.walk_idle hg hidle.1 hidle.2).generate_idle hvalid hchain hidle.1 hidle.2).1
  have hstep := generate_step hvalid hchain
  generalize (ofComponents components options).generate chain name p = answer at hstep
  cases hstep with
  | cached hcache =>
      have hkey : name ∈ p.cache.keys := Table.mem_keys_of_get? hcache
      exact absurd ⟨fun hmem => h.pending name hmem hkey, Or.inr hkey⟩ hidle
  | circular _ hmem => exact h.back hmem g
  | unknown _ hmem hunknown =>
      exact absurd ⟨hmem, Or.inl (targetsOf_eq_nil hunknown)⟩ hidle
  | entered hnew hmem hc htargets hanswer hfile =>
      have hne : targetsOf components name ≠ [] := fun hnil => hidle ⟨hmem, Or.inl hnil⟩
      have hunvisited : name ∉ w.visited := by
        rw [h.visited name hne, not_or]
        exact ⟨hnew, hmem⟩
      have hname : name ∈ g.names := by
        obtain ⟨target, htarget⟩ := List.exists_mem_of_ne_nil _ hne
        rw [← hg] at htarget
        exact ReferenceGraph.mem_names_of_mem_keys (ReferenceGraph.mem_keys_of_edge htarget)
      have hall := generateAll_follows components options g hg name (chain ++ [name])
        (targetsOf components name) _ _ (hvalid.enter hmem hnew htargets)
        (fun target htarget x hx => leads_to_target hchain hx (mem_targetsOf_iff.mp htarget).1)
        (fun _ htarget => htarget) (h.enter hnew _)
      rw [hanswer] at hall
      rw [g.walk_new g.names chain hmem hunvisited hname, hg]
      exact hall.leave hmem _
termination_by (remaining components.keys chain, 0)
decreasing_by
  exact Prod.Lex.left _ _ (remaining_append_lt (Table.mem_keys_of_get? hc) hmem)

/-- Requests for the targets of a component and a walk to them keep together. -/
theorem generateAll_follows (components : ComponentTable) (options : OutputOptions)
    (g : ReferenceGraph) (hg : ∀ name, g.dependencies name = targetsOf components name)
    (owner : String) (chain targets : List String) (p : Progress) (w : ReferenceGraph.Walk)
    (hvalid : Valid components options chain p)
    (hchain : ∀ target ∈ targets, ∀ x ∈ chain, TransGen (Refers components) x target)
    (htargets : ∀ target ∈ targets, target ∈ targetsOf components owner)
    (h : Follows components chain p w) :
    Follows components chain
      ((ofComponents components options).generateAll owner chain targets p).2
      (g.walk g.names chain targets w) := by
  match targets, hchain, htargets with
  | [], _, _ =>
      rw [generateAll, g.walk_nil]
      exact h
  | target :: rest, hchain, htargets =>
      have hchain' : ∀ t ∈ rest, ∀ x ∈ chain, TransGen (Refers components) x t :=
        fun t ht => hchain t (List.mem_cons_of_mem _ ht)
      have htargets' : ∀ t ∈ rest, t ∈ targetsOf components owner :=
        fun t ht => htargets t (List.mem_cons_of_mem _ ht)
      have hone := hchain target List.mem_cons_self
      rw [generateAll, g.walk_cons]
      by_cases hkey : target ∈ components.keys
      · have hcontains : (ofComponents components options).components.contains target = true :=
          Table.contains_iff.mpr hkey
        rw [if_pos hcontains]
        exact generateAll_follows components options g hg owner chain rest _ _
          (generate_spec components options chain target p hvalid hone).valid hchain' htargets'
          (generate_follows components options g hg chain target p w hvalid hone h)
      · have hcontains : ¬ (ofComponents components options).components.contains target = true :=
          fun hcontains => hkey (Table.contains_iff.mp hcontains)
        -- What leads to the target is a component, so the target is not on the chain.
        have hmem : target ∉ chain := fun hmem => by
          obtain ⟨_, hrefers, -⟩ := TransGen.head'_iff.mp (hone target hmem)
          exact hkey hrefers.mem_keys
        rw [if_neg hcontains]
        refine generateAll_follows components options g hg owner chain rest _ _
          (hvalid.warn fun name t heq => ?_) hchain' htargets'
          ((h.walk_idle hg hmem (Or.inl (targetsOf_eq_nil hkey))).warn (nofun))
        obtain ⟨rfl, rfl⟩ := Warning.unknownShape.inj heq
        exact ⟨htargets t List.mem_cons_self, hkey⟩
termination_by (remaining components.keys chain, targets.length + 1)

end

/-! ### Runs of requests -/

section Runs

variable {components : ComponentTable} {options : OutputOptions} {p : Progress}

/-- A request for a component that is not cached and has targets makes it the next owner. -/
theorem Valid.owners_generate {name : String} (h : Valid components options [] p)
    (hnew : name ∉ p.cache.keys) (hne : targetsOf components name ≠ []) :
    p.graph.edges.keys ++ [name] <+:
      ((ofComponents components options).generate [] name p).2.graph.edges.keys := by
  have hchain : ∀ x ∈ [], TransGen (Refers components) x name :=
    fun _ hx => absurd hx List.not_mem_nil
  have hstep := generate_step h hchain
  generalize (ofComponents components options).generate [] name p = answer at hstep
  cases hstep with
  | cached hcache => exact absurd (Table.mem_keys_of_get? hcache) hnew
  | circular _ hmem => exact absurd hmem List.not_mem_nil
  | unknown _ _ hunknown => exact absurd (targetsOf_eq_nil hunknown) hne
  | @entered _ targets _ _ _ hmem hc htargets hanswer hfile =>
      have howner : name ∉ p.graph.edges.keys := fun howner => by
        refine h.owners name howner ?_
        rw [h.recorded, if_neg (not_or.mpr ⟨hmem, hnew⟩)]
      have htargets' : targets ≠ [] := by
        rw [ne_eq, ← distinct_eq_nil_iff, htargets]
        exact hne
      have hall := generateAll_spec components options name ([] ++ [name])
        (targetsOf components name) _ (h.enter hmem hnew htargets)
        (fun target htarget x hx => leads_to_target hchain hx (mem_targetsOf_iff.mp htarget).1)
        (fun _ htarget => htarget)
      have hkeys : (p.graph.recordAll name targets).edges.keys = p.graph.edges.keys ++ [name] := by
        rw [ReferenceGraph.keys_recordAll, if_neg htargets', appendNew_of_not_mem howner]
      rw [hanswer] at hall
      exact hkeys ▸ hall.later.owners

/-- With the owners that there are after a request, the walk has come as far as the request. -/
theorem Follows.request {g : ReferenceGraph}
    (hg : ∀ name, g.dependencies name = targetsOf components name)
    (hvalid : Valid components options [] p)
    (h : Follows components [] p (g.walk g.names [] p.graph.edges.keys ⟨[], []⟩))
    (name : String) :
    let p' := ((ofComponents components options).generate [] name p).2
    Follows components [] p' (g.walk g.names [] p'.graph.edges.keys ⟨[], []⟩) := by
  intro p'
  have hchain : ∀ x ∈ [], TransGen (Refers components) x name :=
    fun _ hx => absurd hx List.not_mem_nil
  by_cases hidle : targetsOf components name = [] ∨ name ∈ p.cache.keys
  · obtain ⟨hfollows, hgraph⟩ := h.generate_idle hvalid hchain List.not_mem_nil hidle
    rw [show p'.graph = p.graph from hgraph]
    exact hfollows
  · obtain ⟨hne, hnew⟩ := not_or.mp hidle
    have hfollows := generate_follows components options g hg [] name p _ hvalid hchain h
    have hvalid' : Valid components options [] p' :=
      (generate_spec components options [] name p hvalid hchain).valid
    obtain ⟨others, hothers⟩ : _ ++ _ <+: p'.graph.edges.keys := hvalid.owners_generate hnew hne
    -- The other new owners have been requested on the way, so that the walk has been there.
    have hvisited : ∀ other ∈ others,
        other ∈ (g.walk g.names [] [name]
          (g.walk g.names [] p.graph.edges.keys ⟨[], []⟩)).visited := by
      intro other hother
      have hrefers := hvalid'.owners other (hothers ▸ List.mem_append_right _ hother)
      rw [hvalid'.recorded] at hrefers
      split at hrefers
      · rename_i hcached
        exact (hfollows.visited other hrefers).mpr hcached.symm
      · exact absurd rfl hrefers
    rw [← hothers, g.walk_append, g.walk_append, g.walk_of_visited g.names hvisited]
    exact hfollows

/-- A run of requests gives the chains that the walk over the recorded references closes. -/
theorem requests_follow {g : ReferenceGraph}
    (hg : ∀ name, g.dependencies name = targetsOf components name) (names : List String)
    (hvalid : Valid components options [] p)
    (h : Follows components [] p (g.walk g.names [] p.graph.edges.keys ⟨[], []⟩)) :
    let p' := ((ofComponents components options).requests names p).2
    Follows components [] p' (g.walk g.names [] p'.graph.edges.keys ⟨[], []⟩) := by
  induction names generalizing p with
  | nil => exact h
  | cons name rest ih =>
      exact ih (generate_spec components options [] name p hvalid
        fun _ hx => absurd hx List.not_mem_nil).valid (h.request hg hvalid name)

/-- Before the first request neither has given anything. -/
theorem Follows.start (g : ReferenceGraph) :
    Follows components [] .start (g.walk g.names [] [] ⟨[], []⟩) := by
  rw [g.walk_nil]
  refine ⟨fun _ hx => absurd hx List.not_mem_nil, fun name _ => ?_, rfl⟩
  exact ⟨fun h => absurd h List.not_mem_nil, fun h => h.elim (absurd · List.not_mem_nil) id⟩

/-- Generating the table warns about the cycles of the graph that it records. -/
theorem circularChains_generateTable (components : ComponentTable) (options : OutputOptions) :
    let p := ((ofComponents components options).generateTable .start).2
    (circularChains p.warnings).map closedCycle = p.graph.cycles := by
  intro p
  have hp : p = ((ofComponents components options).requests components.keys .start).2 :=
    congrArg Prod.snd (generateEach_eq _ _ _)
  have hg (name : String) : p.graph.dependencies name = targetsOf components name :=
    dependencies_generateTable name
  have hfollows := requests_follow hg components.keys (@Valid.start components options)
    (Follows.start p.graph)
  rw [← hp] at hfollows
  exact hfollows.cycles.symm

end Runs

end ComponentGenerator

/-! ### Compilations -/

/-- Only the generation of components warns about chains. -/
theorem Api.circularChains_compile (api : Api) (options : OutputOptions) :
    circularChains (api.compile options).warnings =
      circularChains ((ComponentGenerator.ofComponents api.components options).generateTable
        .start).2.warnings := by
  have hgroups : circularChains (OperationModule.groups api options).2 = [] :=
    circularChains_eq_nil fun chain hmem => by
      obtain ⟨_, _, heq⟩ := OperationModule.exists_renamed_of_mem_groupsFrom hmem
      exact nomatch heq
  have hrepeated (files : List GeneratedFile) : circularChains (keepFirst [] files).2 = [] :=
    circularChains_eq_nil fun chain hmem => by
      obtain ⟨_, heq⟩ := exists_repeatedPath_of_mem_keepFirst hmem
      exact nomatch heq
  have hfiles : circularChains (OperationModule.files api options).2 = [] := hgroups
  rw [compile]
  cases options.index <;>
    simp only [circularChains_append, hfiles, hrepeated, hgroups, List.append_nil, if_true,
      Bool.false_eq_true, if_false]

/-- **Warnings and cycles agree.** Generating a table of components warns about the cycles of the
graph that it records, one by one and in their order: the cycle is what the chain of the warning
closes. A compilation returns this graph and has no other warnings about circular references, so its
warnings are about the cycles that a summary lists. -/
theorem circularChains_eq_cycles (api : Api) (options : OutputOptions) :
    let run := (ComponentGenerator.ofComponents api.components options).generateTable .start
    let compiled := api.compile options
    (circularChains run.2.warnings).map closedCycle = run.2.graph.cycles ∧
      (circularChains compiled.warnings).map closedCycle = compiled.dependencies.cycles ∧
      ∃ members, Summary.ofApi api compiled.dependencies = .obj members ∧
        members.lookup "cycles" =
          some (.arr (((circularChains compiled.warnings).map closedCycle).map Summary.texts)) := by
  intro run compiled
  have hrun : (circularChains run.2.warnings).map closedCycle = run.2.graph.cycles :=
    ComponentGenerator.circularChains_generateTable api.components options
  have hcompiled : (circularChains compiled.warnings).map closedCycle =
      compiled.dependencies.cycles := by
    rw [api.circularChains_compile, api.dependencies_compile_eq]
    exact hrun
  refine ⟨hrun, hcompiled, _, rfl, ?_⟩
  rw [hcompiled]
  rfl

end OpenApiZod
