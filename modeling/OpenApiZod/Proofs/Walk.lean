import Mathlib.Data.List.Chain
import Mathlib.Data.List.Nodup
import OpenApiZod.Proofs.Reachability

/-!
# Walks

`ReferenceGraph.walk` goes to one target after the other (`walk_cons`), and to a single one in one
of four ways (`walk_back`, `walk_visited`, `walk_new`, `walk_foreign`).

`Walk.Invariant` states what it keeps true while it stands at the end of a path: the path leads from
each of its names to the next, in the order in which they were visited, and so do the cycles that
were closed. A name that has been visited and left is settled: whoever goes on from it along
references that close none of the cycles comes to an end.

`Walk.Extends` states what going to some targets adds. A new cycle is closed either by a reference
to one of the targets or by a reference of a newly visited name, so no reference closes two
(`extends_walk`).
-/

namespace OpenApiZod.ReferenceGraph

/-! ### Steps of a walk -/

section Steps

variable (g : ReferenceGraph) (names path : List String)

/-- Without targets the walk stays where it is. -/
theorem walk_nil (w : Walk) : g.walk names path [] w = w := by
  rw [walk]

/-- A target on the path closes a cycle, the rest of the path from there. -/
theorem walk_back {target : String} (h : target ∈ path) (w : Walk) :
    g.walk names path [target] w =
      { w with cycles := w.cycles ++ [path.dropWhile (· ≠ target)] } := by
  rw [walk, if_pos h, walk_nil]

/-- A name that was visited before and is not on the path is passed over. -/
theorem walk_visited {target : String} {w : Walk} (hpath : target ∉ path)
    (h : target ∈ w.visited) : g.walk names path [target] w = w := by
  rw [walk, if_neg hpath, if_pos h, walk_nil]

/-- The walk goes on from a new name, one step further down the path. -/
theorem walk_new {target : String} {w : Walk} (hpath : target ∉ path)
    (hnew : target ∉ w.visited) (hname : target ∈ names) :
    g.walk names path [target] w = g.walk names (path ++ [target]) (g.dependencies target)
      { w with visited := w.visited ++ [target] } := by
  rw [walk, if_neg hpath, if_neg hnew, if_pos hname, walk_nil]

/-- A name that the graph does not know is passed over. -/
theorem walk_foreign {target : String} {w : Walk} (hpath : target ∉ path)
    (hname : target ∉ names) : g.walk names path [target] w = w := by
  rw [walk, if_neg hpath, if_neg hname, walk_nil, ite_self]

/-- A walk goes to one target after the other. -/
theorem walk_cons (target : String) (rest : List String) (w : Walk) :
    g.walk names path (target :: rest) w =
      g.walk names path rest (g.walk names path [target] w) := by
  by_cases hpath : target ∈ path
  · rw [walk, if_pos hpath, walk_back g names path hpath]
  by_cases hvisited : target ∈ w.visited
  · rw [walk, if_neg hpath, if_pos hvisited, walk_visited g names path hpath hvisited]
  by_cases hname : target ∈ names
  · rw [walk, if_neg hpath, if_neg hvisited, if_pos hname,
      walk_new g names path hpath hvisited hname]
  · rw [walk, if_neg hpath, if_neg hvisited, if_neg hname,
      walk_foreign g names path hpath hname]

/-- Targets are gone to one after the other. -/
theorem walk_append (targets rest : List String) (w : Walk) :
    g.walk names path (targets ++ rest) w =
      g.walk names path rest (g.walk names path targets w) := by
  induction targets generalizing w with
  | nil => rw [List.nil_append, walk_nil]
  | cons target targets ih => rw [List.cons_append, walk_cons, ih, ← walk_cons]

/-- Nothing is left to do for targets that have been visited. -/
theorem walk_of_visited {targets : List String} {w : Walk}
    (h : ∀ target ∈ targets, target ∈ w.visited) : g.walk names [] targets w = w := by
  induction targets with
  | nil => exact walk_nil g names [] w
  | cons target rest ih =>
      rw [walk_cons, walk_visited g names [] List.not_mem_nil (h target List.mem_cons_self)]
      exact ih fun t ht => h t (List.mem_cons_of_mem _ ht)

end Steps

/-! ### The invariant of a walk -/

/-- An elementary cycle: different names, each of which refers to the next, and the last one to the
first. -/
structure IsCycle (g : ReferenceGraph) (cycle : List String) : Prop where
  nodup : cycle.Nodup
  linked : cycle.IsChain g.Edge
  closed : ∃ last first, cycle.getLast? = some last ∧ cycle.head? = some first ∧ g.Edge last first

namespace Walk

/-- One of the cycles goes from `first` to `last`: the reference of `last` to `first` closed it. -/
def Closed (w : Walk) (last first : String) : Prop :=
  ∃ cycle ∈ w.cycles, cycle.getLast? = some last ∧ cycle.head? = some first

/-- Whoever goes on from the name along references that close none of the cycles comes to an end. -/
def Settled (g : ReferenceGraph) (w : Walk) (name : String) : Prop :=
  Acc (fun target owner => g.Edge owner target ∧ ¬ w.Closed owner target) name

/-- What holds of a walk that stands at the end of `path`. -/
structure Invariant (g : ReferenceGraph) (path : List String) (w : Walk) : Prop where
  nodup : w.visited.Nodup
  path_sublist : path.Sublist w.visited
  linked : path.IsChain g.Edge
  cycles : ∀ cycle ∈ w.cycles, g.IsCycle cycle ∧ cycle.Sublist w.visited
  settled : ∀ name ∈ w.visited, name ∉ path → w.Settled g name

/-- The ends of a cycle tell the reference that closed it: it leads from the last name to the
first. -/
def ends (cycle : List String) : Option String × Option String :=
  (cycle.getLast?, cycle.head?)

/-- A new cycle is closed by a reference to one of the targets from the end of the path, or by a
reference of a name that had not been visited. -/
def ClosedOnTheWay (w : Walk) (path targets cycle : List String) : Prop :=
  (cycle.getLast? = path.getLast? ∧ ∃ target ∈ targets, cycle.head? = some target) ∨
    ∃ last, cycle.getLast? = some last ∧ last ∉ w.visited

/-- What `w'` adds to `w`, if it has gone to the targets from the end of the path. -/
structure Extends (g : ReferenceGraph) (path targets : List String) (w w' : Walk) : Prop where
  invariant : w'.Invariant g path
  visited : w.visited ⊆ w'.visited
  cycles : ∃ new, w'.cycles = w.cycles ++ new ∧ (new.map ends).Nodup ∧
    ∀ cycle ∈ new, w.ClosedOnTheWay path targets cycle
  settled : ∀ target ∈ targets,
    w'.Settled g target ∨ ∃ last, path.getLast? = some last ∧ w'.Closed last target

section Lemmas

variable {g : ReferenceGraph} {path targets : List String} {target : String} {w w' w'' : Walk}

/-- A reference that closed a cycle still does when more cycles are there. -/
theorem Closed.mono (hsub : w.cycles ⊆ w'.cycles) {last first : String}
    (h : w.Closed last first) : w'.Closed last first := by
  obtain ⟨cycle, hmem, hends⟩ := h
  exact ⟨cycle, hsub hmem, hends⟩

/-- Whether a cycle is closed on the way depends on its ends. -/
theorem ClosedOnTheWay.congr {cycle cycle' : List String} (hends : ends cycle = ends cycle')
    (h : w.ClosedOnTheWay path targets cycle) : w.ClosedOnTheWay path targets cycle' := by
  obtain ⟨hlast, hhead⟩ := Prod.mk.inj hends
  rw [ClosedOnTheWay, ← hlast, ← hhead]
  exact h

/-- A name that is settled stays so when more cycles are there. -/
theorem Settled.mono (hsub : w.cycles ⊆ w'.cycles) {name : String} (h : w.Settled g name) :
    w'.Settled g name := by
  refine Subrelation.accessible ?_ h
  rintro _ _ ⟨hedge, hopen⟩
  exact ⟨hedge, fun hclosed => hopen (hclosed.mono hsub)⟩

/-- A walk keeps the cycles that it had. -/
theorem Extends.cycles_subset (h : Extends g path targets w w') : w.cycles ⊆ w'.cycles := by
  obtain ⟨new, heq, -⟩ := h.cycles
  rw [heq]
  exact List.subset_append_left _ _

/-- No name is twice on the path. -/
theorem Invariant.nodup_path (h : w.Invariant g path) : path.Nodup :=
  List.Nodup.sublist h.path_sublist h.nodup

/-- The invariant holds where the walk starts, on an empty path. -/
theorem Invariant.start (g : ReferenceGraph) : (⟨[], []⟩ : Walk).Invariant g [] where
  nodup := List.nodup_nil
  path_sublist := List.Sublist.slnil
  linked := List.IsChain.nil
  cycles _ h := absurd h List.not_mem_nil
  settled _ h := absurd h List.not_mem_nil

/-- A path with a name on it, cut at that name. -/
theorem exists_dropWhile_eq (h : target ∈ path) :
    ∃ before after, path = before ++ target :: after ∧
      path.dropWhile (· ≠ target) = target :: after := by
  obtain ⟨before, after, rfl, hbefore⟩ := List.eq_append_cons_of_mem h
  refine ⟨before, after, rfl, ?_⟩
  rw [List.dropWhile_append_of_pos, List.dropWhile_cons_of_neg (by simp)]
  intro x hx
  exact decide_eq_true fun heq => hbefore (heq ▸ hx)

/-- A reference back to the path closes a cycle. -/
theorem Invariant.back (h : w.Invariant g path) (hmem : target ∈ path)
    (hedge : ∀ last, path.getLast? = some last → g.Edge last target) :
    Extends g path [target] w
      { w with cycles := w.cycles ++ [path.dropWhile (· ≠ target)] } := by
  obtain ⟨before, after, hpath, hcut⟩ := exists_dropWhile_eq hmem
  have hsuffix : path.dropWhile (· ≠ target) <:+ path := List.dropWhile_suffix _
  have hlast : (path.dropWhile (· ≠ target)).getLast? = path.getLast? := by
    rw [hcut, hpath, List.getLast?_append_cons]
  have hhead : (path.dropWhile (· ≠ target)).head? = some target := by
    rw [hcut, List.head?_cons]
  obtain ⟨last, hend⟩ : ∃ last, path.getLast? = some last := by
    rw [← hlast, hcut]
    exact ⟨_, List.getLast?_cons⟩
  have hcycle : g.IsCycle (path.dropWhile (· ≠ target)) :=
    ⟨List.Nodup.sublist hsuffix.sublist h.nodup_path, h.linked.suffix hsuffix,
      last, target, hlast.trans hend, hhead, hedge last hend⟩
  have hsub : w.cycles ⊆ w.cycles ++ [path.dropWhile (· ≠ target)] := List.subset_append_left _ _
  refine ⟨⟨h.nodup, h.path_sublist, h.linked, ?_, ?_⟩, fun _ hx => hx,
    ⟨_, rfl, List.nodup_singleton _, ?_⟩, ?_⟩
  · intro cycle hcycles
    rcases List.mem_append.mp hcycles with hcycles | hcycles
    · exact h.cycles cycle hcycles
    · obtain rfl := List.mem_singleton.mp hcycles
      exact ⟨hcycle, hsuffix.sublist.trans h.path_sublist⟩
  · exact fun name hname hpath => (h.settled name hname hpath).mono hsub
  · intro cycle hcycles
    obtain rfl := List.mem_singleton.mp hcycles
    exact Or.inl ⟨hlast, target, List.mem_singleton_self _, hhead⟩
  · intro t ht
    obtain rfl := List.mem_singleton.mp ht
    exact Or.inr ⟨last, hend, _, List.mem_append_right _ (List.mem_singleton_self _),
      hlast.trans hend, hhead⟩

/-- Nothing is added for a target that was visited and left. -/
theorem Invariant.stay (h : w.Invariant g path) (hvisited : target ∈ w.visited)
    (hpath : target ∉ path) : Extends g path [target] w w where
  invariant := h
  visited _ hx := hx
  cycles := ⟨[], (List.append_nil _).symm, List.nodup_nil, nofun⟩
  settled t ht := by
    obtain rfl := List.mem_singleton.mp ht
    exact Or.inl (h.settled t hvisited hpath)

/-- A new name is put at the end of the path. -/
theorem Invariant.enter (h : w.Invariant g path) (hnew : target ∉ w.visited)
    (hedge : ∀ last, path.getLast? = some last → g.Edge last target) :
    Invariant g (path ++ [target]) { w with visited := w.visited ++ [target] } where
  nodup := by
    rw [List.nodup_append]
    refine ⟨h.nodup, List.nodup_singleton _, ?_⟩
    rintro x hx y hy rfl
    exact hnew (List.mem_singleton.mp hy ▸ hx)
  path_sublist := h.path_sublist.append (List.Sublist.refl _)
  linked := by
    rw [List.isChain_append]
    refine ⟨h.linked, List.IsChain.singleton _, fun last hlast y hy => ?_⟩
    obtain rfl : target = y := Option.some.inj hy
    exact hedge last hlast
  cycles cycle hcycle :=
    ⟨(h.cycles cycle hcycle).1,
      (h.cycles cycle hcycle).2.trans (List.sublist_append_left _ _)⟩
  settled name hname hpath := by
    rw [List.mem_append, not_or] at hpath
    exact h.settled name ((List.mem_append.mp hname).resolve_right hpath.2) hpath.1

/-- When the targets of a new name have been gone to, the name is settled and leaves the path. -/
theorem Extends.leave (hnew : target ∉ w.visited)
    (hout : Extends g (path ++ [target]) (g.dependencies target)
      { w with visited := w.visited ++ [target] } w') : Extends g path [target] w w' := by
  -- A reference of the new name that closes no cycle goes to a name that is settled already.
  have hsettled : w'.Settled g target := by
    refine Acc.intro _ fun y hy => ?_
    rcases hout.settled y hy.1 with hsettled | ⟨last, hlast, hclosed⟩
    · exact hsettled
    · rw [List.getLast?_concat, Option.some.injEq] at hlast
      exact absurd (hlast ▸ hclosed) hy.2
  obtain ⟨new, heq, hnodup, hplaces⟩ := hout.cycles
  refine ⟨⟨hout.invariant.nodup, ?_, ?_, hout.invariant.cycles, ?_⟩, ?_,
    ⟨new, heq, hnodup, fun cycle hcycle => Or.inr ?_⟩, ?_⟩
  · exact (List.sublist_append_left _ _).trans hout.invariant.path_sublist
  · exact hout.invariant.linked.left_of_append
  · intro name hname hpath
    by_cases heq : name = target
    · exact heq ▸ hsettled
    · refine hout.invariant.settled name hname ?_
      rw [List.mem_append, List.mem_singleton, not_or]
      exact ⟨hpath, heq⟩
  · exact fun x hx => hout.visited (List.mem_append_left _ hx)
  · rcases hplaces cycle hcycle with ⟨hlast, -⟩ | ⟨last, hlast, hunseen⟩
    · exact ⟨target, hlast.trans List.getLast?_concat, hnew⟩
    · exact ⟨last, hlast, fun hmem => hunseen (List.mem_append_left _ hmem)⟩
  · intro t ht
    exact Or.inl (List.mem_singleton.mp ht ▸ hsettled)

/-- A reference that closes a cycle on the walk to the first target closes none on the way to the
rest. -/
theorem Extends.not_closedOnTheWay (h : w.Invariant g path) {rest cycle : List String}
    (hnew : target ∉ rest) (hone : Extends g path [target] w w') (hmem : cycle ∈ w'.cycles)
    (hplace : w.ClosedOnTheWay path [target] cycle) : ¬ w'.ClosedOnTheWay path rest cycle := by
  obtain ⟨hcycle, hsub⟩ := hone.invariant.cycles cycle hmem
  -- Both names of the reference that closed the cycle were visited by then.
  rintro (⟨hend, t, ht, hhead⟩ | ⟨last, hlast, hunseen⟩)
  · rcases hplace with ⟨-, t', ht', hhead'⟩ | ⟨last, hlast, hunseen⟩
    · obtain rfl : t = t' := Option.some.inj (hhead.symm.trans hhead')
      exact hnew (List.mem_singleton.mp ht' ▸ ht)
    · exact hunseen (h.path_sublist.subset (List.mem_of_getLast? (hend ▸ hlast)))
  · exact hunseen (hsub.subset (List.mem_of_getLast? hlast))

/-- Going to a target and then to the rest. -/
theorem Extends.cons (h : w.Invariant g path) {rest : List String} (hnew : target ∉ rest)
    (hone : Extends g path [target] w w') (hrest : Extends g path rest w' w'') :
    Extends g path (target :: rest) w w'' := by
  obtain ⟨new, heq, hnodup, hplaces⟩ := hone.cycles
  obtain ⟨new', heq', hnodup', hplaces'⟩ := hrest.cycles
  refine ⟨hrest.invariant, fun _ hx => hrest.visited (hone.visited hx),
    ⟨new ++ new', ?_, ?_, ?_⟩, ?_⟩
  · rw [heq', heq, List.append_assoc]
  · rw [List.map_append, List.nodup_append]
    refine ⟨hnodup, hnodup', fun _ hends _ hends' hsame => ?_⟩
    obtain ⟨cycle, hcycle, rfl⟩ := List.mem_map.mp hends
    obtain ⟨cycle', hcycle', rfl⟩ := List.mem_map.mp hends'
    have hmem : cycle ∈ w'.cycles := heq ▸ List.mem_append_right _ hcycle
    exact hone.not_closedOnTheWay h hnew hmem (hplaces cycle hcycle)
      ((hplaces' cycle' hcycle').congr hsame.symm)
  · intro cycle hcycle
    rcases List.mem_append.mp hcycle with hcycle | hcycle
    · rcases hplaces cycle hcycle with ⟨hlast, t, ht, hhead⟩ | hunseen
      · exact Or.inl ⟨hlast, t, List.mem_cons.mpr (Or.inl (List.mem_singleton.mp ht)), hhead⟩
      · exact Or.inr hunseen
    · rcases hplaces' cycle hcycle with ⟨hlast, t, ht, hhead⟩ | ⟨last, hlast, hunseen⟩
      · exact Or.inl ⟨hlast, t, List.mem_cons_of_mem _ ht, hhead⟩
      · exact Or.inr ⟨last, hlast, fun hmem => hunseen (hone.visited hmem)⟩
  · intro t ht
    rcases List.mem_cons.mp ht with rfl | ht
    · rcases hone.settled t (List.mem_singleton_self _) with hsettled | ⟨last, hlast, hclosed⟩
      · exact Or.inl (hsettled.mono hrest.cycles_subset)
      · exact Or.inr ⟨last, hlast, hclosed.mono hrest.cycles_subset⟩
    · exact hrest.settled t ht

end Lemmas

end Walk

open Walk

/-- Going to targets keeps the invariant, whatever they lead to. -/
theorem extends_walk (g : ReferenceGraph) (hdistinct : ∀ name, (g.dependencies name).Nodup)
    (path targets : List String) (w : Walk) (hnodup : targets.Nodup)
    (hnames : ∀ target ∈ targets, target ∈ g.names)
    (hedges : ∀ target ∈ targets, ∀ last, path.getLast? = some last → g.Edge last target)
    (h : w.Invariant g path) :
    Extends g path targets w (g.walk g.names path targets w) := by
  match targets, hnodup, hnames, hedges with
  | [], _, _, _ =>
      rw [walk_nil]
      exact ⟨h, fun _ hx => hx, ⟨[], (List.append_nil _).symm, List.nodup_nil, nofun⟩, nofun⟩
  | target :: rest, hnodup, hnames, hedges =>
      obtain ⟨hnew, hnodup⟩ := List.nodup_cons.mp hnodup
      have hname : target ∈ g.names := hnames target List.mem_cons_self
      have hedge := hedges target List.mem_cons_self
      have hone : Extends g path [target] w (g.walk g.names path [target] w) := by
        by_cases hpath : target ∈ path
        · rw [walk_back g g.names path hpath]
          exact h.back hpath hedge
        by_cases hvisited : target ∈ w.visited
        · rw [walk_visited g g.names path hpath hvisited]
          exact h.stay hvisited hpath
        rw [walk_new g g.names path hpath hvisited hname]
        refine Extends.leave hvisited ?_
        refine extends_walk g hdistinct (path ++ [target]) (g.dependencies target) _
          (hdistinct target) (fun _ => mem_names_of_mem_dependencies) ?_ (h.enter hvisited hedge)
        intro t ht last hlast
        rw [List.getLast?_concat, Option.some.injEq] at hlast
        exact hlast ▸ ht
      rw [walk_cons]
      exact hone.cons h hnew (extends_walk g hdistinct path rest _ hnodup
        (fun t ht => hnames t (List.mem_cons_of_mem _ ht))
        (fun t ht => hedges t (List.mem_cons_of_mem _ ht)) hone.invariant)
termination_by (remaining g.names path, targets.length)
decreasing_by
  · exact Prod.Lex.left _ _ (remaining_append_lt hname hpath)
  · exact Prod.Lex.right _ (by simp)

end OpenApiZod.ReferenceGraph
