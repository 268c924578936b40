import ResourceLookup.Key.Basic
import ResourceLookup.Tree.Arena

/-!
# The resource tree

The tree stores texts under keys. Each step of a key leads to a child of the node before; what
is missing on the way is created. Every node but the root can also be reached directly by its
absolute name.
-/

namespace ResourceLookup

/-- The nodes of a tree, the first of which is the root, and their absolute names. -/
structure Tree where
  arena : Arena
  paths : Std.ExtTreeMap Text NodeIndex compare

namespace Tree

/-- The index of the root. -/
def root : NodeIndex := 0

/-- The tree that has only a root. -/
def empty : Tree := ⟨Arena.empty.push .root, ∅⟩

instance : Inhabited Tree := ⟨empty⟩

/-- The number of nodes, the root included. -/
def size (t : Tree) : Nat := t.arena.size

/-- Whether there is no node but the root. -/
def isEmpty (t : Tree) : Bool := t.size ≤ 1

/-- The node with an index. -/
def node (t : Tree) (i : NodeIndex) : Node := t.arena.node i

/-- The index of the node with an absolute name. -/
def findPath? (t : Tree) (absoluteName : Text) : Option NodeIndex := t.paths[absoluteName]?

/-- Leads from a node to its child for a step, creating the child if it is missing. -/
def createChild (t : Tree) (parent : NodeIndex) (step : Step) : Tree × NodeIndex :=
  let category := Category.ofSegment step.segment
  match (t.node parent).child? step.binding category step.segment with
  | some child => (t, child)
  | none =>
    let name := (t.node parent).childName step
    let child := t.size
    let grown := t.arena.push (.new step.segment (some name))
    (⟨grown.modify parent (·.addChild step.binding category step.segment child),
      t.paths.insert name child⟩, child)

/-- Leads along steps from a node, creating what is missing on the way. -/
def createPath (t : Tree) (start : NodeIndex) (steps : List Step) : Tree × NodeIndex :=
  steps.foldl (fun (t, current) step => t.createChild current step) (t, start)

/-- Stores a text at a node. -/
def setData (t : Tree) (i : NodeIndex) (value : Text) : Tree :=
  { t with arena := t.arena.modify i (·.setData value) }

/-- Stores a text under a key below a node, and tells at which node. -/
def insertAt (t : Tree) (start : NodeIndex) (key : Key) (value : Text) : Tree × NodeIndex :=
  let (grown, target) := t.createPath start key.steps
  (grown.setData target value, target)

/-- Stores a text under a key. -/
def insert (t : Tree) (key : Key) (value : Text) : Tree := (t.insertAt root key value).1

/-- What is stored at a node and below it: first at the node, then below its children, the
tightly bound ones first. Children have greater indices than their parents. -/
def entriesFrom (t : Tree) (i : NodeIndex) : List Entry :=
  (t.node i).stored.toList ++
    (t.node i).allChildren.flatMap fun child =>
      if _h : i < child ∧ child < t.size then t.entriesFrom child else []
termination_by t.size - i
decreasing_by exact Nat.sub_lt_sub_left (Nat.lt_trans _h.1 _h.2) _h.1

/-- The line that tells about an entry. -/
def entryLine (e : Entry) : Text := e.key ++ ": ".toList ++ e.value ++ ['\n']

/-- The lines of what is stored at a node and below it. -/
def dump (t : Tree) (start : NodeIndex) : Text := (t.entriesFrom start).flatMap entryLine

@[simp] theorem size_empty : empty.size = 1 := rfl

@[simp] theorem size_setData (t : Tree) (i : NodeIndex) (value : Text) :
    (t.setData i value).size = t.size := by
  simp [size, setData]

@[simp] theorem findPath?_setData (t : Tree) (i : NodeIndex) (value path : Text) :
    (t.setData i value).findPath? path = t.findPath? path := rfl

@[simp] theorem createPath_nil (t : Tree) (start : NodeIndex) :
    t.createPath start [] = (t, start) := rfl

@[simp] theorem createPath_cons (t : Tree) (start : NodeIndex) (step : Step)
    (steps : List Step) :
    t.createPath start (step :: steps) =
      (t.createChild start step).1.createPath (t.createChild start step).2 steps := rfl

theorem createPath_append (t : Tree) (start : NodeIndex) (steps more : List Step) :
    t.createPath start (steps ++ more) =
      (t.createPath start steps).1.createPath (t.createPath start steps).2 more := by
  induction steps generalizing t start with
  | nil => rfl
  | cons step steps ih => simp [ih]

/-- A step to a child that exists changes nothing. -/
theorem createChild_of_child? {t : Tree} {parent child : NodeIndex} {step : Step}
    (h : (t.node parent).child? step.binding (Category.ofSegment step.segment) step.segment =
      some child) :
    t.createChild parent step = (t, child) := by
  simp [createChild, h]

end Tree

end ResourceLookup
