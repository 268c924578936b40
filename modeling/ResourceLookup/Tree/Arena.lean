import ResourceLookup.Tree.Node

/-!
# Arenas

An arena holds the nodes of a tree under their indices. Nodes are only ever added, each at the
end.
-/

namespace ResourceLookup

/-- Nodes by index. -/
structure Arena where
  nodes : Array Node

namespace Arena

/-- The arena without nodes. -/
def empty : Arena := ⟨#[]⟩

instance : Inhabited Arena := ⟨empty⟩

/-- The number of nodes. -/
def size (arena : Arena) : Nat := arena.nodes.size

/-- Whether there are no nodes. -/
def isEmpty (arena : Arena) : Bool := arena.nodes.isEmpty

/-- Adds a node at the end, where it gets the next index. -/
def push (arena : Arena) (node : Node) : Arena := ⟨arena.nodes.push node⟩

/-- The node with an index; a number beyond the arena reads as a bare root. -/
def node (arena : Arena) (i : NodeIndex) : Node := arena.nodes[i]?.getD .root

/-- Changes the node with an index. -/
def modify (arena : Arena) (i : NodeIndex) (f : Node → Node) : Arena :=
  ⟨arena.nodes.modify i f⟩

@[simp] theorem size_push (arena : Arena) (node : Node) :
    (arena.push node).size = arena.size + 1 := by
  simp [size, push]

@[simp] theorem size_modify (arena : Arena) (i : NodeIndex) (f : Node → Node) :
    (arena.modify i f).size = arena.size := by
  simp [size, modify]

theorem node_push (arena : Arena) (n : Node) (i : NodeIndex) :
    (arena.push n).node i = if i = arena.size then n else arena.node i := by
  by_cases last : i = arena.size
  · subst last
    simp [node, push, size]
  · have beyond : i ≠ arena.nodes.size := last
    simp [node, push, Array.getElem?_push, last, beyond]

theorem node_modify (arena : Arena) (i j : NodeIndex) (f : Node → Node) :
    (arena.modify i f).node j =
      if i = j ∧ j < arena.size then f (arena.node j) else arena.node j := by
  simp only [node, modify, size, Array.getElem?_modify]
  by_cases same : i = j
  · subst same
    by_cases within : i < arena.nodes.size <;> simp [within]
  · simp [same]

end Arena

end ResourceLookup
