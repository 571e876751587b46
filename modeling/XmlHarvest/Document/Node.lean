import XmlHarvest.Name

/-!
# Nodes

The nodes of a document are numbered in document order: the root is 0, and every element is
followed by its attributes and then by its content. Numbers are therefore compared to compare
positions, and the nodes inside an element are those from its number up to its `stop`.

## Main definitions

* `nodeLimit`: how many nodes are too many.
* `Content`: what a node says by itself.
* `Kind`: the kinds of nodes.
* `Node`: a node with the numbers of its neighbours.
* `nodeAt`: the node with a number.
-/

namespace XmlHarvest

/-- The number of a node in its document. -/
abbrev NodeId := Nat

/-- Numbers of nodes have 32 bits, and so has the number of all nodes of a document: this is the
32nd power of two. -/
def nodeLimit : Nat :=
  4294967296

/-! ## Content -/

/-- What kind of node a node is, and what it says by itself. -/
inductive Content where
  | root
  | element (name : QName)
  | attribute (name : QName) (value : String)
  | text (chars : String)
  | comment (content : String)
  | instruction (target data : String)
deriving DecidableEq, Repr, Inhabited

/-- The kinds of nodes. -/
inductive Kind where
  | root
  | element
  | attribute
  | text
  | comment
  | instruction
deriving DecidableEq, Repr

/-- The kind of a node. -/
def Content.kind : Content → Kind
  | .root => .root
  | .element _ => .element
  | .attribute _ _ => .attribute
  | .text _ => .text
  | .comment _ => .comment
  | .instruction _ _ => .instruction

/-- The name of an element or attribute. The name of an instruction is its target. -/
def Content.name? : Content → Option QName
  | .element name | .attribute name _ => some name
  | .instruction target _ => some ⟨none, target, none⟩
  | .root | .text _ | .comment _ => none

/-- The text of a node that has no content of its own. -/
def Content.value? : Content → Option String
  | .attribute _ value => some value
  | .text chars => some chars
  | .comment content => some content
  | .instruction _ data => some data
  | .root | .element _ => none

/-! ## Nodes and their neighbours -/

/-- A node: what it says, and the numbers of the nodes it is linked with. -/
structure Node where
  content : Content
  parent : Option NodeId
  attributes : List NodeId
  children : List NodeId
  /-- One past the number of the last node inside this one. -/
  stop : Nat
deriving DecidableEq, Repr, Inhabited

namespace Node

/-- A node without attributes and content at the number `id`. -/
def leaf (content : Content) (parent id : NodeId) : Node :=
  ⟨content, some parent, [], [], id + 1⟩

/-- The kind of a node. -/
def kind (n : Node) : Kind :=
  n.content.kind

/-- A node with one more node in it: an attribute behind the other attributes, and any other node
behind the other members of its content. -/
def adopt (n : Node) (kind : Kind) (id : NodeId) : Node :=
  if kind = .attribute then { n with attributes := n.attributes ++ [id] }
  else { n with children := n.children ++ [id] }

/-- A node that stops before a number. -/
def close (n : Node) (stop : Nat) : Node :=
  { n with stop := stop }

@[simp] theorem kind_leaf (content : Content) (parent id : NodeId) :
    (leaf content parent id).kind = content.kind := rfl

@[simp] theorem parent_leaf (content : Content) (parent id : NodeId) :
    (leaf content parent id).parent = some parent := rfl

@[simp] theorem attributes_leaf (content : Content) (parent id : NodeId) :
    (leaf content parent id).attributes = [] := rfl

@[simp] theorem children_leaf (content : Content) (parent id : NodeId) :
    (leaf content parent id).children = [] := rfl

@[simp] theorem stop_leaf (content : Content) (parent id : NodeId) :
    (leaf content parent id).stop = id + 1 := rfl

@[simp] theorem kind_adopt (n : Node) (kind : Kind) (id : NodeId) :
    (n.adopt kind id).kind = n.kind := by
  unfold adopt
  split <;> rfl

@[simp] theorem parent_adopt (n : Node) (kind : Kind) (id : NodeId) :
    (n.adopt kind id).parent = n.parent := by
  unfold adopt
  split <;> rfl

@[simp] theorem stop_adopt (n : Node) (kind : Kind) (id : NodeId) :
    (n.adopt kind id).stop = n.stop := by
  unfold adopt
  split <;> rfl

theorem attributes_adopt (n : Node) (kind : Kind) (id : NodeId) :
    (n.adopt kind id).attributes =
      if kind = .attribute then n.attributes ++ [id] else n.attributes := by
  unfold adopt
  split <;> rfl

theorem children_adopt (n : Node) (kind : Kind) (id : NodeId) :
    (n.adopt kind id).children =
      if kind = .attribute then n.children else n.children ++ [id] := by
  unfold adopt
  split <;> rfl

@[simp] theorem kind_close (n : Node) (stop : Nat) : (n.close stop).kind = n.kind := rfl

@[simp] theorem parent_close (n : Node) (stop : Nat) : (n.close stop).parent = n.parent := rfl

@[simp] theorem attributes_close (n : Node) (stop : Nat) :
    (n.close stop).attributes = n.attributes := rfl

@[simp] theorem children_close (n : Node) (stop : Nat) :
    (n.close stop).children = n.children := rfl

@[simp] theorem stop_close (n : Node) (stop : Nat) : (n.close stop).stop = stop := rfl

end Node

/-! ## Nodes by number -/

/-- The node with a number; a number that no node has names an empty node. -/
def nodeAt (nodes : Array Node) (i : NodeId) : Node :=
  nodes.getD i default

theorem nodeAt_of_size_le {nodes : Array Node} {i : NodeId} (h : nodes.size ≤ i) :
    nodeAt nodes i = default := by
  simp [nodeAt, Array.getD_eq_getD_getElem?, Array.getElem?_eq_none h]

theorem nodeAt_push (nodes : Array Node) (n : Node) (i : NodeId) :
    nodeAt (nodes.push n) i = if i = nodes.size then n else nodeAt nodes i := by
  simp only [nodeAt, Array.getD_eq_getD_getElem?, Array.getElem?_push]
  split <;> rfl

theorem nodeAt_modify (nodes : Array Node) {p : NodeId} (hp : p < nodes.size) (f : Node → Node)
    (i : NodeId) :
    nodeAt (nodes.modify p f) i = if i = p then f (nodeAt nodes p) else nodeAt nodes i := by
  simp only [nodeAt, Array.getD_eq_getD_getElem?, Array.getElem?_modify]
  by_cases hi : i = p
  · subst hi
    simp [Array.getElem?_eq_getElem hp]
  · simp [hi, Ne.symm hi]

end XmlHarvest
