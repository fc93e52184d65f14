import Mathlib.Logic.Relation
import Mathlib.Tactic.Common
import OpenApiZod.ReferenceGraph

/-!
# Edges and paths of reference graphs

`Edge` says that one name refers to another, `Reaches` that a path of one edge or more leads from
one name to another. Paths of any length are `Relation.ReflTransGen g.Edge`.

A graph that is recorded edge by edge has exactly the recorded edges, in whatever order and
however often each was recorded (`edge_ofEdges_iff`).
-/

open Relation

namespace OpenApiZod.ReferenceGraph

/-- One edge leads from `a` to `b`. -/
def Edge (g : ReferenceGraph) (a b : String) : Prop :=
  b ∈ g.dependencies a

/-- A path of at least one edge leads from `a` to `b`. -/
def Reaches (g : ReferenceGraph) (a b : String) : Prop :=
  TransGen g.Edge a b

/-- One of the edges leads from `a` to `b`. -/
def Recorded (edges : List (String × String)) (a b : String) : Prop :=
  (a, b) ∈ edges

/-- The graph in which edges were recorded, one after the other. -/
def ofEdges (edges : List (String × String)) : ReferenceGraph :=
  edges.foldl (fun g e => g.record e.1 e.2) .empty

/-! ### Recording -/

/-- Nobody depends on anything in the empty graph. -/
@[simp] theorem dependencies_empty (owner : String) : empty.dependencies owner = [] := rfl

/-- Recording a target adds it to those of its owner, unless it is there, and changes no others. -/
theorem dependencies_record (g : ReferenceGraph) (owner target name : String) :
    (g.record owner target).dependencies name =
      if name = owner then appendNew (g.dependencies owner) target else g.dependencies name := by
  rw [record]
  rw [dependencies, Table.get?_insert]
  by_cases h : name = owner
  · rw [if_pos h, if_pos h, Option.getD_some]
  · rw [if_neg h, if_neg h, dependencies]

/-- Recording a target adds the edge to it. -/
theorem edge_record_iff (g : ReferenceGraph) (owner target a b : String) :
    (g.record owner target).Edge a b ↔ g.Edge a b ∨ (a, b) = (owner, target) := by
  unfold Edge
  rw [dependencies_record, Prod.mk.injEq]
  by_cases h : a = owner
  · rw [if_pos h, mem_appendNew, h]
    simp
  · rw [if_neg h]
    simp [h]

/-- Recording edges one by one adds these edges. -/
theorem edge_foldl_record_iff (g : ReferenceGraph) (edges : List (String × String))
    (a b : String) :
    (edges.foldl (fun g e => g.record e.1 e.2) g).Edge a b ↔ g.Edge a b ∨ (a, b) ∈ edges := by
  induction edges generalizing g with
  | nil => simp
  | cons e edges ih =>
      rw [List.foldl_cons, ih, edge_record_iff, List.mem_cons, or_assoc]

/-- A recorded graph has exactly the recorded edges. -/
theorem edge_ofEdges_iff (edges : List (String × String)) (a b : String) :
    (ofEdges edges).Edge a b ↔ Recorded edges a b := by
  rw [ofEdges, edge_foldl_record_iff, Recorded]
  simp [Edge]

/-- The edges of a graph are those that were recorded. -/
theorem edge_ofEdges (edges : List (String × String)) :
    (ofEdges edges).Edge = Recorded edges := by
  funext a b
  exact propext (edge_ofEdges_iff edges a b)

/-- Recording targets adds those that are new to the ones of their owner, and changes no others. -/
theorem dependencies_recordAll (g : ReferenceGraph) (owner : String) (targets : List String)
    (name : String) :
    (g.recordAll owner targets).dependencies name =
      if name = owner then extendNew (g.dependencies owner) targets else g.dependencies name := by
  induction targets generalizing g with
  | nil =>
      split
      · rename_i h
        rw [h]
        rfl
      · rfl
  | cons target rest ih =>
      have hstep : g.recordAll owner (target :: rest) =
          (g.record owner target).recordAll owner rest := rfl
      rw [hstep, ih, dependencies_record, dependencies_record, if_pos rfl]
      by_cases h : name = owner
      · rw [if_pos h, if_pos h]
        rfl
      · rw [if_neg h, if_neg h, if_neg h]

/-- Recording targets adds the edges to them. -/
theorem edge_recordAll_iff (g : ReferenceGraph) (owner : String) (targets : List String)
    (a b : String) :
    (g.recordAll owner targets).Edge a b ↔ g.Edge a b ∨ a = owner ∧ b ∈ targets := by
  unfold Edge
  rw [dependencies_recordAll]
  by_cases h : a = owner
  · rw [if_pos h, mem_extendNew, h]
    simp
  · rw [if_neg h]
    simp [h]

/-! ### Owners -/

/-- Recording a target makes its owner a name of the graph. -/
theorem keys_record (g : ReferenceGraph) (owner target : String) :
    (g.record owner target).edges.keys = appendNew g.edges.keys owner :=
  Table.keys_insert g.edges owner _

/-- Recording makes a name an owner if there is anything to record. -/
theorem keys_recordAll (g : ReferenceGraph) (owner : String) (targets : List String) :
    (g.recordAll owner targets).edges.keys =
      if targets = [] then g.edges.keys else appendNew g.edges.keys owner := by
  cases targets with
  | nil => rfl
  | cons target rest =>
      rw [if_neg (List.cons_ne_nil target rest)]
      induction rest generalizing g target with
      | nil => exact keys_record g owner target
      | cons other rest ih =>
          have hstep : g.recordAll owner (target :: other :: rest) =
              (g.record owner target).recordAll owner (other :: rest) := rfl
          have howner : owner ∈ appendNew g.edges.keys owner := mem_appendNew.mpr (Or.inr rfl)
          rw [hstep, ih, keys_record, appendNew_of_mem howner]

/-- Whoever has an edge owns an entry of the graph. -/
theorem mem_keys_of_edge {g : ReferenceGraph} {a b : String} (h : g.Edge a b) :
    a ∈ g.edges.keys := by
  rw [Edge, dependencies] at h
  cases howner : g.edges.get? a with
  | none => simp [howner] at h
  | some targets => exact Table.mem_keys_of_get? howner

/-- Whoever reaches a name owns an entry of the graph. -/
theorem mem_keys_of_reaches {g : ReferenceGraph} {a b : String} (h : g.Reaches a b) :
    a ∈ g.edges.keys := by
  obtain ⟨c, hedge, -⟩ := TransGen.head'_iff.mp h
  exact mem_keys_of_edge hedge

/-- Every owner has a target. -/
def OwnersRefer (g : ReferenceGraph) : Prop :=
  ∀ name ∈ g.edges.keys, g.dependencies name ≠ []

/-- Owners still refer after one more target is recorded. -/
theorem OwnersRefer.record {g : ReferenceGraph} (h : g.OwnersRefer) (owner target : String) :
    (g.record owner target).OwnersRefer := by
  intro name hname
  rw [keys_record, mem_appendNew] at hname
  rw [dependencies_record]
  by_cases heq : name = owner
  · rw [if_pos heq]
    exact List.ne_nil_of_mem (mem_appendNew.mpr (Or.inr rfl))
  · rw [if_neg heq]
    exact h name (hname.resolve_right heq)

/-- Nor do owners without targets arise when several are recorded. -/
theorem OwnersRefer.recordAll {g : ReferenceGraph} (h : g.OwnersRefer) (owner : String)
    (targets : List String) : (g.recordAll owner targets).OwnersRefer := by
  induction targets generalizing g with
  | nil => exact h
  | cons target rest ih => exact ih (h.record owner target)

end OpenApiZod.ReferenceGraph
