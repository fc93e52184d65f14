import OpenApiZod.Table
import OpenApiZod.Yaml.Scalar

/-!
# Nodes of a YAML text

The tree that a YAML text spells. Anchors are numbered: the number of an anchor is how many
different names were anchored before it, so a name that is anchored again takes a number that may
be taken already. An alias stands for the last node with its number, which `Node.anchored` finds.
-/

namespace OpenApiZod.Yaml

/-- A node. Tags are written out in full. -/
inductive Node
  | scalar (anchor : Option Nat) (tag : Option String) (style : Style) (text : String)
  | aliasOf (anchor : Nat)
  | sequence (anchor : Option Nat) (tag : Option String) (items : List Node)
  | mapping (anchor : Option Nat) (tag : Option String) (entries : List (Node × Node))
deriving Repr

namespace Node

/-- The node that nothing stands for. -/
def empty : Node := .scalar none none .plain ""

instance : Inhabited Node := ⟨empty⟩

/-- The number of a node's anchor. -/
def anchor? : Node → Option Nat
  | .scalar anchor .. => anchor
  | .aliasOf _ => none
  | .sequence anchor .. => anchor
  | .mapping anchor .. => anchor

mutual

/-- The size of a node: a scalar and an alias count once, a collection twice. -/
def size : Node → Nat
  | .scalar .. => 1
  | .aliasOf _ => 1
  | .sequence _ _ items => sizeOfItems items + 2
  | .mapping _ _ entries => sizeOfEntries entries + 2

/-- The size of the nodes of a sequence. -/
def sizeOfItems : List Node → Nat
  | [] => 0
  | n :: rest => n.size + sizeOfItems rest

/-- The size of the nodes of a mapping. -/
def sizeOfEntries : List (Node × Node) → Nat
  | [] => 0
  | (k, v) :: rest => k.size + v.size + sizeOfEntries rest

end

mutual

/-- All nodes of a tree in the order in which they start. -/
def all : Node → List Node
  | .sequence anchor tag items => .sequence anchor tag items :: allItems items
  | .mapping anchor tag entries => .mapping anchor tag entries :: allEntries entries
  | n => [n]

/-- All nodes of a sequence's nodes. -/
def allItems : List Node → List Node
  | [] => []
  | n :: rest => n.all ++ allItems rest

/-- All nodes of a mapping's nodes. -/
def allEntries : List (Node × Node) → List Node
  | [] => []
  | (k, v) :: rest => k.all ++ v.all ++ allEntries rest

end

/-- The node that each number stands for: the last one with that number. -/
def anchored (root : Node) : List (Nat × Node) :=
  (root.all.filterMap fun n => n.anchor?.map (·, n)).reverse

end Node

end OpenApiZod.Yaml
