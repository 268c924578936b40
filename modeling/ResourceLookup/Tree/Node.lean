import ResourceLookup.Entry
import ResourceLookup.Key.Token
import ResourceLookup.Tree.ChildSet

/-!
# Nodes

A node of the resource tree has its own segment as name and, unless it is the root, an absolute
name, which spells the way from the root. It may hold data, and it has one set of children for
each binding.
-/

namespace ResourceLookup

/-- A node of the resource tree. -/
structure Node where
  /-- The segment that leads to the node. -/
  name : Text
  /-- The key of the node; only the root has none. -/
  absoluteName : Option Text
  /-- The stored text, if one was stored here. -/
  data : Option Text
  tight : ChildSet
  loose : ChildSet

namespace Node

/-- A node without data and children. -/
def new (name : Text) (absoluteName : Option Text) : Node :=
  ⟨name, absoluteName, none, .empty, .empty⟩

/-- The root of an empty tree. -/
def root : Node := new "root".toList none

instance : Inhabited Node := ⟨root⟩

/-- Stores a text in place of an earlier one. -/
def setData (node : Node) (value : Text) : Node := { node with data := some value }

/-- The children with the given binding. -/
def children (node : Node) : Binding → ChildSet
  | .tight => node.tight
  | .loose => node.loose

/-- The child for exactly this segment, taken in the given category. -/
def child? (node : Node) (binding : Binding) (category : Category) (segment : Text) :
    Option NodeIndex :=
  (node.children binding).get? category segment

/-- Puts a child in the place of the one for the segment. -/
def addChild (node : Node) (binding : Binding) (category : Category) (segment : Text)
    (child : NodeIndex) : Node :=
  match binding with
  | .tight => { node with tight := node.tight.insert category segment child }
  | .loose => { node with loose := node.loose.insert category segment child }

/-- The absolute name of the child that a step leads to. Below the root a tight step is written
without its delimiter. -/
def childName (node : Node) (step : Step) : Text :=
  match node.absoluteName, step.binding with
  | none, .tight => step.segment
  | none, .loose => step.text
  | some parent, _ => parent ++ step.text

/-- All children, the tightly bound ones first. -/
def allChildren (node : Node) : List NodeIndex :=
  Binding.all.flatMap fun binding => (node.children binding).toList

/-- What the node holds under its absolute name. -/
def stored (node : Node) : Option Entry :=
  match node.absoluteName, node.data with
  | some name, some data => some ⟨name, data⟩
  | _, _ => none

@[simp] theorem data_new (name : Text) (absoluteName : Option Text) :
    (new name absoluteName).data = none := rfl

@[simp] theorem children_new (name : Text) (absoluteName : Option Text) (binding : Binding) :
    (new name absoluteName).children binding = .empty := by
  cases binding <;> rfl

@[simp] theorem children_setData (node : Node) (value : Text) (binding : Binding) :
    (node.setData value).children binding = node.children binding := by
  cases binding <;> rfl

@[simp] theorem data_addChild (node : Node) (binding : Binding) (category : Category)
    (segment : Text) (child : NodeIndex) :
    (node.addChild binding category segment child).data = node.data := by
  cases binding <;> rfl

@[simp] theorem absoluteName_addChild (node : Node) (binding : Binding) (category : Category)
    (segment : Text) (child : NodeIndex) :
    (node.addChild binding category segment child).absoluteName = node.absoluteName := by
  cases binding <;> rfl

/-- A new child joins the children with its binding and leaves the others alone. -/
theorem children_addChild (node : Node) (binding other : Binding) (category : Category)
    (segment : Text) (child : NodeIndex) :
    (node.addChild binding category segment child).children other =
      if binding = other then (node.children other).insert category segment child
      else node.children other := by
  cases binding <;> cases other <;> rfl

end Node

end ResourceLookup
