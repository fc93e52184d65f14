import OpenApiZod.ReferenceGraph

/-!
# Cycle groups

The names that lie on cycles of a reference graph fall into groups: two names are in one group if
each leads to the other. One depth-first search finds all groups. It numbers the names in the
order in which it enters them and keeps on a stack those whose group is not complete. For every
name it remembers the lowest number of a name on the stack that it is known to lead to. When a
name has been followed and leads to no number below its own, the names above it on the stack
and itself are a complete group.

A name alone is a group only if it refers to itself.
-/

namespace OpenApiZod

/-- The number of the group that a name is in, and how many groups there are. -/
structure CycleGroups where
  groupOf : Table Nat
  count : Nat

namespace CycleGroups

/-- No groups. -/
def empty : CycleGroups := ⟨.empty, 0⟩

/-- Adds a group. -/
def push (groups : CycleGroups) (members : List String) : CycleGroups where
  groupOf := groups.groupOf.extend (members.map fun member => (member, groups.count))
  count := groups.count + 1

/-- Whether `a` and `b` are in one group. -/
def shared (groups : CycleGroups) (a b : String) : Bool :=
  match groups.groupOf.get? a, groups.groupOf.get? b with
  | some x, some y => x == y
  | _, _ => false

/-- Whether there are no groups. -/
def isEmpty (groups : CycleGroups) : Bool := groups.count == 0

end CycleGroups

/-- The state of a search for cycle groups: the number for the next name, the numbers given, the
lowest numbers led to, the names whose group is not complete, last entered first and once more as
a set, and the complete groups. -/
structure CycleSearch where
  next : Nat
  index : Table Nat
  low : Table Nat
  stack : List String
  onStack : List String
  groups : CycleGroups

namespace CycleSearch

/-- The search that has entered no name. -/
def start : CycleSearch := ⟨0, .empty, .empty, [], [], .empty⟩

/-- The number of a name that was entered. -/
def indexOf (s : CycleSearch) (name : String) : Nat := (s.index.get? name).getD 0

/-- The lowest number that a name which was entered is known to lead to. -/
def lowOf (s : CycleSearch) (name : String) : Nat := (s.low.get? name).getD 0

/-- Gives a name the next number and puts it on the stack. -/
def enter (s : CycleSearch) (name : String) : CycleSearch :=
  { s with
    next := s.next + 1
    index := s.index.insert name s.next
    low := s.low.insert name s.next
    stack := name :: s.stack
    onStack := appendNew s.onStack name }

/-- Notes that a name leads to a number. -/
def lower (s : CycleSearch) (name : String) (number : Nat) : CycleSearch :=
  if number < s.lowOf name then { s with low := s.low.insert name number } else s

/-- The elements of a stack down to a name, and those below it. -/
def popTo (name : String) : List String → List String × List String
  | [] => ([], [])
  | member :: stack =>
    if member = name then ([member], stack)
    else
      let (members, rest) := popTo name stack
      (member :: members, rest)

/-- Takes a name and what lies above it off the stack if it leads to no number below its own.
What was taken off is a group if it has several members or refers to itself. -/
def close (s : CycleSearch) (name : String) (selfReference : Bool) : CycleSearch :=
  if s.lowOf name = s.indexOf name then
    let (members, stack) := popTo name s.stack
    { s with
      stack
      onStack := s.onStack.filter (· ∉ members)
      groups :=
        if 1 < members.length || selfReference then s.groups.push members else s.groups }
  else s

/-- Lowering a number leaves the index as it is. -/
@[simp] theorem index_lower (s : CycleSearch) (name : String) (number : Nat) :
    (s.lower name number).index = s.index := by
  unfold lower
  split <;> rfl

/-- So does closing a group. -/
@[simp] theorem index_close (s : CycleSearch) (name : String) (selfReference : Bool) :
    (s.close name selfReference).index = s.index := by
  unfold close
  split <;> rfl

/-- Entering a name adds it to the index and nothing else. -/
theorem mem_index_enter {s : CycleSearch} {name other : String} :
    other ∈ (s.enter name).index.keys ↔ other ∈ s.index.keys ∨ other = name := by
  rw [enter, Table.keys_insert, mem_appendNew]

/-- A search that has gone on from `s`: what `s` entered stays entered. -/
abbrev After (s : CycleSearch) : Type :=
  { later : CycleSearch // ∀ name ∈ s.index.keys, name ∈ later.index.keys }

end CycleSearch

namespace ReferenceGraph

/-- Going on never makes more names left to enter. -/
theorem remaining_after_le {names : List String} {s : CycleSearch} (later : s.After) :
    remaining names later.1.index.keys ≤ remaining names s.index.keys :=
  remaining_mono later.2

mutual

/-- Enters a new name, follows its references and completes its group if it can. -/
def connect (g : ReferenceGraph) (name : String) (s : CycleSearch) (_hname : name ∈ g.names)
    (_hnew : name ∉ s.index.keys) : s.After :=
  let followed := g.connectAll name (g.dependencies name) (s.enter name)
    fun _ h => mem_names_of_mem_dependencies h
  ⟨followed.1.close name (decide (name ∈ g.dependencies name)), fun other h => by
    rw [CycleSearch.index_close]
    exact followed.2 other (CycleSearch.mem_index_enter.mpr (Or.inl h))⟩
termination_by (remaining g.names s.index.keys, 0)
decreasing_by
  exact Prod.Lex.left _ _
    (remaining_lt _hname _hnew fun _ h => CycleSearch.mem_index_enter.mpr h)

/-- Follows the references of `name` to `targets`: enters those that are new, and notes what
numbers on the stack the targets lead to. -/
def connectAll (g : ReferenceGraph) (name : String) (targets : List String) (s : CycleSearch)
    (htargets : ∀ target ∈ targets, target ∈ g.names) : s.After :=
  match targets, htargets with
  | [], _ => ⟨s, fun _ h => h⟩
  | target :: rest, htargets =>
    have hrest : ∀ t ∈ rest, t ∈ g.names := fun t ht => htargets t (List.mem_cons_of_mem _ ht)
    if hnew : target ∈ s.index.keys then
      if target ∈ s.onStack then
        let followed := g.connectAll name rest (s.lower name (s.indexOf target)) hrest
        ⟨followed.1, fun other h => followed.2 other (by simpa using h)⟩
      else
        g.connectAll name rest s hrest
    else
      let entered := g.connect target s (htargets target List.mem_cons_self) hnew
      let followed := g.connectAll name rest (entered.1.lower name (entered.1.lowOf target)) hrest
      ⟨followed.1, fun other h => followed.2 other (by simpa using entered.2 other h)⟩
termination_by (remaining g.names s.index.keys, targets.length + 1)
decreasing_by
  · simpa only [CycleSearch.index_lower] using Prod.Lex.right _ (by simp)
  · exact Prod.Lex.right _ (by simp)
  · exact Prod.Lex.right _ (by simp)
  · rw [CycleSearch.index_lower]
    exact Prod.Lex.right' _ (remaining_after_le entered) (by simp)

end

/-- Searches from each of `owners` that was not entered on the way to another. -/
def connectEach (g : ReferenceGraph) (owners : List String) (s : CycleSearch)
    (howners : ∀ owner ∈ owners, owner ∈ g.names) : CycleSearch :=
  match owners, howners with
  | [], _ => s
  | owner :: rest, howners =>
    have hrest : ∀ o ∈ rest, o ∈ g.names := fun o ho => howners o (List.mem_cons_of_mem _ ho)
    if hnew : owner ∈ s.index.keys then g.connectEach rest s hrest
    else g.connectEach rest (g.connect owner s (howners owner List.mem_cons_self) hnew).1 hrest

/-- The groups of names on common cycles. -/
def cycleGroups (g : ReferenceGraph) : CycleGroups :=
  (g.connectEach g.edges.keys .start fun _ h => mem_names_of_mem_keys h).groups

end ReferenceGraph

end OpenApiZod
