import Mathlib.Data.List.Rotate
import OpenApiZod.Proofs.CycleGroups
import OpenApiZod.Proofs.Tables
import OpenApiZod.Proofs.Walk

/-!
# Reported cycles

The cycles that a walk reports and the groups of names on common cycles come from two searches of
one graph. The names of a reported cycle lead to each other, so they are in one group
(`IsCycle.shared`). Two rotations of one cycle would both list its names in the order in which they
were visited, so they are the same list, and no list is reported twice
(`pairwise_not_isRotated_cycles`).

Conversely, all owners are settled when the walk has ended. A name that leads back to itself refers
to another one that does. If that reference closes no reported cycle, it leads nearer to where all
ways end, so in the end one of them does close a cycle (`Settled.exists_closed`). This cycle is in
the same group (`cycles_ofEdges`).
-/

open Relation

namespace OpenApiZod.ReferenceGraph

open Walk

/-! ### The group of a cycle -/

/-- From every name of a cycle a path leads to every name of it. -/
theorem IsCycle.reaches {g : ReferenceGraph} {cycle : List String} (h : g.IsCycle cycle)
    {a b : String} (ha : a ∈ cycle) (hb : b ∈ cycle) : g.Reaches a b := by
  obtain ⟨last, first, hlast, hfirst, hedge⟩ := h.closed
  have hto : ReflTransGen g.Edge a last := by
    refine h.linked.backwards_induction (ReflTransGen g.Edge · last) cycle
      (fun _ _ => ReflTransGen.head) (fun hne => ?_) a ha
    rw [List.getLast?_eq_some_getLast hne, Option.some.injEq] at hlast
    rw [hlast]
  have hfrom : ReflTransGen g.Edge first b := by
    refine h.linked.induction (ReflTransGen g.Edge first ·) cycle
      (fun _ _ hstep hpath => hpath.tail hstep) (fun hne => ?_) b hb
    rw [List.head?_eq_some_head hne, Option.some.injEq] at hfirst
    rw [hfirst]
  exact (TransGen.tail' hto hedge).trans_left hfrom

/-- The names of a cycle are in one group. -/
theorem IsCycle.shared {g : ReferenceGraph} {cycle : List String} (h : g.IsCycle cycle)
    {a b : String} (ha : a ∈ cycle) (hb : b ∈ cycle) : g.cycleGroups.shared a b = true :=
  (g.shared_cycleGroups_iff a b).mpr ⟨h.reaches ha hb, h.reaches hb ha⟩

/-! ### Rotations -/

/-- A list without repetitions has one part only in which given names stand in its order. -/
theorem eq_of_perm_of_sublist {xs ys all : List String} (hall : all.Nodup) (hxs : xs.Sublist all)
    (hys : ys.Sublist all) (h : xs.Perm ys) : xs = ys := by
  have horder : all.Pairwise fun a b => all.idxOf a < all.idxOf b := by
    have hdistinct := pairwise_idxOf_distinct all
    rwa [distinct_of_nodup hall] at hdistinct
  refine h.eq_of_pairwise (fun a b _ _ hab hba => ?_) (horder.sublist hxs) (horder.sublist hys)
  omega

/-! ### Closed cycles -/

/-- A settled name that leads back to itself leads to a closed cycle and is led to from it. -/
theorem Walk.Settled.exists_closed {g : ReferenceGraph} {w : Walk} {name : String}
    (h : w.Settled g name) (hback : g.Reaches name name) :
    ∃ last first, w.Closed last first ∧ g.Reaches name last ∧ g.Reaches last name := by
  induction h with
  | intro owner _ ih =>
      obtain ⟨target, hedge, hpath⟩ := TransGen.head'_iff.mp hback
      by_cases hclosed : w.Closed owner target
      · exact ⟨owner, target, hclosed, hback, hback⟩
      obtain ⟨last, first, hlast, hto, hfrom⟩ :=
        ih target ⟨hedge, hclosed⟩ (TransGen.tail' hpath hedge)
      exact ⟨last, first, hlast, hto.head hedge, hfrom.trans_left hpath⟩

/-! ### The walk from all owners -/

section Cycles

variable (g : ReferenceGraph) (hdistinct : ∀ name, (g.dependencies name).Nodup)

include hdistinct

/-- What the walk from all owners adds to a walk that has not begun. -/
theorem extends_cycles : Extends g [] g.edges.keys ⟨[], []⟩
    (g.walk g.names [] g.edges.keys ⟨[], []⟩) :=
  g.extends_walk hdistinct [] g.edges.keys ⟨[], []⟩ g.edges.nodup_keys
    (fun _ => mem_names_of_mem_keys) (fun _ _ _ hlast => absurd hlast (by simp))
    (Invariant.start g)

/-- Every cycle that is reported is an elementary cycle of the graph. -/
theorem isCycle_of_mem_cycles {cycle : List String} (h : cycle ∈ g.cycles) : g.IsCycle cycle :=
  ((g.extends_cycles hdistinct).invariant.cycles cycle h).1

/-- No reported cycle is a rotation of another one. -/
theorem pairwise_not_isRotated_cycles :
    g.cycles.Pairwise fun cycle cycle' => ¬ cycle.IsRotated cycle' := by
  have hwalk := g.extends_cycles hdistinct
  obtain ⟨new, hcycles, hnodup, -⟩ := hwalk.cycles
  have hcycles : g.cycles = new := hcycles
  rw [← hcycles] at hnodup
  refine hnodup.of_map.imp_of_mem fun {cycle cycle'} hmem hmem' hne hrotated => hne ?_
  exact eq_of_perm_of_sublist hwalk.invariant.nodup (hwalk.invariant.cycles cycle hmem).2
    (hwalk.invariant.cycles cycle' hmem').2 hrotated.perm

/-- In the end every name that leads anywhere is settled. -/
theorem settled_of_reaches {name other : String} (h : g.Reaches name other) :
    (g.walk g.names [] g.edges.keys ⟨[], []⟩).Settled g name := by
  rcases (g.extends_cycles hdistinct).settled name (mem_keys_of_reaches h) with
    hsettled | ⟨last, hlast, -⟩
  · exact hsettled
  · exact absurd hlast (by simp)

/-- Every name that leads back to itself shares a group with all names of some reported cycle. -/
theorem exists_cycle_of_reaches {name : String} (h : g.Reaches name name) :
    ∃ cycle ∈ g.cycles, ∀ x ∈ cycle, g.cycleGroups.shared name x = true := by
  obtain ⟨last, first, ⟨cycle, hmem, hlast, -⟩, hto, hfrom⟩ :=
    (g.settled_of_reaches hdistinct h).exists_closed h
  refine ⟨cycle, hmem, fun x hx => ?_⟩
  have hcycle := g.isCycle_of_mem_cycles hdistinct hmem
  have hend : last ∈ cycle := List.mem_of_getLast? hlast
  exact (g.shared_cycleGroups_iff name x).mpr
    ⟨hto.trans (hcycle.reaches hend hx), (hcycle.reaches hx hend).trans hfrom⟩

end Cycles

/-! ### Recorded edges -/

/-- However often an edge is recorded, its target stands once among those of its owner. -/
theorem nodup_dependencies_ofEdges (edges : List (String × String)) (name : String) :
    ((ofEdges edges).dependencies name).Nodup := by
  have hrecord : ∀ g : ReferenceGraph, (∀ x, (g.dependencies x).Nodup) →
      ∀ x, ((edges.foldl (fun g e => g.record e.1 e.2) g).dependencies x).Nodup := by
    induction edges with
    | nil => exact fun _ h => h
    | cons e edges ih =>
        refine fun g h => ih _ fun x => ?_
        rw [dependencies_record]
        split
        · exact nodup_appendNew (h e.1)
        · exact h x
  exact hrecord .empty (fun _ => List.nodup_nil) name

/-- **Reported cycles and cycle groups.** In a graph of recorded edges, every reported cycle is a
genuine elementary one, and its names are in one group; no cycle is reported twice, not even
rotated; and every group has a reported cycle in it. So there are no reported cycles exactly if
there are no groups. -/
theorem cycles_ofEdges (edges : List (String × String)) :
    (∀ cycle ∈ (ofEdges edges).cycles, (ofEdges edges).IsCycle cycle ∧
        ∀ a ∈ cycle, ∀ b ∈ cycle, (ofEdges edges).cycleGroups.shared a b = true) ∧
      ((ofEdges edges).cycles.Pairwise fun cycle cycle' => ¬ cycle.IsRotated cycle') ∧
      (∀ n < (ofEdges edges).cycleGroups.count, ∃ cycle ∈ (ofEdges edges).cycles,
        ∀ x ∈ cycle, (ofEdges edges).cycleGroups.groupOf.get? x = some n) ∧
      (∀ name, (ofEdges edges).cycleGroups.shared name name = true →
        ∃ cycle ∈ (ofEdges edges).cycles,
          ∀ x ∈ cycle, (ofEdges edges).cycleGroups.shared name x = true) ∧
      ((ofEdges edges).cycles = [] ↔ (ofEdges edges).cycleGroups.isEmpty = true) := by
  set g := ofEdges edges
  have hdistinct : ∀ name, (g.dependencies name).Nodup := nodup_dependencies_ofEdges edges
  have hgenuine : ∀ cycle ∈ g.cycles, g.IsCycle cycle :=
    fun _ => g.isCycle_of_mem_cycles hdistinct
  have hcovered : ∀ name, g.Reaches name name →
      ∃ cycle ∈ g.cycles, ∀ x ∈ cycle, g.cycleGroups.shared name x = true :=
    fun _ => g.exists_cycle_of_reaches hdistinct
  refine ⟨fun cycle hmem =>
      ⟨hgenuine cycle hmem, fun _ ha _ hb => (hgenuine cycle hmem).shared ha hb⟩,
    g.pairwise_not_isRotated_cycles hdistinct, fun n hn => ?_,
    fun name hname => hcovered name ((g.shared_cycleGroups_self_iff name).mp hname), ?_⟩
  · obtain ⟨name, hname, hback⟩ := g.exists_groupOf_cycleGroups hn
    obtain ⟨cycle, hmem, hshared⟩ := hcovered name hback
    refine ⟨cycle, hmem, fun x hx => ?_⟩
    obtain ⟨m, hm, hxm⟩ := CycleGroups.shared_iff.mp (hshared x hx)
    exact hxm.trans (hm.symm.trans hname)
  · rw [isEmpty_cycleGroups_iff]
    constructor
    · intro hnil name hback
      obtain ⟨cycle, hmem, -⟩ := hcovered name hback
      exact absurd (hnil ▸ hmem) List.not_mem_nil
    · intro hacyclic
      rw [List.eq_nil_iff_forall_not_mem]
      intro cycle hmem
      obtain ⟨last, first, hlast, -⟩ := (hgenuine cycle hmem).closed
      have hend : last ∈ cycle := List.mem_of_getLast? hlast
      exact hacyclic last ((hgenuine cycle hmem).reaches hend hend)

example : (ofEdges [("A", "B"), ("B", "A"), ("B", "C"), ("C", "A"), ("C", "C")]).cycles =
    [["A", "B"], ["A", "B", "C"], ["C"]] := by
  cbv

end OpenApiZod.ReferenceGraph
