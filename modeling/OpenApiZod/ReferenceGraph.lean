import OpenApiZod.Table
import OpenApiZod.Remaining

/-!
# Reference graphs

Which named shapes refer to which. An edge leads from an owner to a target; owners and the
targets of each owner keep the order in which they were first recorded.

`cycles` lists the cycles that one depth-first walk closes, each once, from the name that the walk
entered first.
-/

namespace OpenApiZod

/-- The targets of every owner. -/
structure ReferenceGraph where
  edges : Table (List String)

namespace ReferenceGraph

/-- The graph without edges. -/
def empty : ReferenceGraph := ⟨.empty⟩

instance : Inhabited ReferenceGraph := ⟨empty⟩

/-- The direct targets of a name, in first-seen order. -/
def dependencies (g : ReferenceGraph) (owner : String) : List String :=
  (g.edges.get? owner).getD []

/-- Adds the edge from `owner` to `target`. -/
def record (g : ReferenceGraph) (owner target : String) : ReferenceGraph :=
  ⟨g.edges.insert owner (appendNew (g.dependencies owner) target)⟩

/-- Adds an edge from `owner` to each target. -/
def recordAll (g : ReferenceGraph) (owner : String) (targets : List String) : ReferenceGraph :=
  targets.foldl (·.record owner ·) g

/-- Whether no edge has been recorded. -/
def isEmpty (g : ReferenceGraph) : Bool := g.edges.isEmpty

/-- The names that own or end an edge. -/
def names (g : ReferenceGraph) : List String :=
  distinct (g.edges.keys ++ g.edges.values.flatten)

/-- Who has recorded targets is a name of the graph. -/
theorem mem_names_of_mem_keys {g : ReferenceGraph} {name : String} (h : name ∈ g.edges.keys) :
    name ∈ g.names := by
  simp only [names, mem_distinct, List.mem_append]
  exact Or.inl h

/-- So is every recorded target. -/
theorem mem_names_of_mem_dependencies {g : ReferenceGraph} {owner target : String}
    (h : target ∈ g.dependencies owner) : target ∈ g.names := by
  simp only [names, mem_distinct, List.mem_append]
  unfold dependencies at h
  cases howner : g.edges.get? owner with
  | none => simp [howner] at h
  | some targets =>
    rw [howner, Option.getD_some] at h
    have hvalue : targets ∈ g.edges.values :=
      List.mem_map_of_mem (Table.mem_entries_iff.mpr howner)
    exact Or.inr (List.mem_flatten_of_mem hvalue h)

/-! ### Cycles closed by a walk -/

/-- What a walk has met: the names entered, and the cycles closed. -/
structure Walk where
  visited : List String
  cycles : List (List String)

/-- Walks depth first to those of `targets` that were not visited before. `path` leads from a
start of the walk to the owner of `targets`; a target on it closes a cycle, which is the path
from that target on. The walk stays among `names`. -/
def walk (g : ReferenceGraph) (names path targets : List String) (w : Walk) : Walk :=
  match targets with
  | [] => w
  | target :: rest =>
    if target ∈ path then
      g.walk names path rest { w with cycles := w.cycles ++ [path.dropWhile (· ≠ target)] }
    else if target ∈ w.visited then
      g.walk names path rest w
    else if target ∈ names then
      g.walk names path rest
        (g.walk names (path ++ [target]) (g.dependencies target)
          { w with visited := w.visited ++ [target] })
    else
      g.walk names path rest w
termination_by (remaining names path, targets.length)
decreasing_by
  · exact Prod.Lex.right _ (by simp)
  · exact Prod.Lex.right _ (by simp)
  · exact Prod.Lex.left _ _ (remaining_append_lt (by assumption) (by assumption))
  · exact Prod.Lex.right _ (by simp)
  · exact Prod.Lex.right _ (by simp)

/-- The cycles that a depth-first walk from every owner in turn closes, each starting with the
name that was entered first. -/
def cycles (g : ReferenceGraph) : List (List String) :=
  (g.walk g.names [] g.edges.keys ⟨[], []⟩).cycles

end ReferenceGraph

end OpenApiZod
