import XmlHarvest.Document.Forest
import XmlHarvest.Document.Node

/-!
# Layout

The nodes that a forest takes up, in document order, with the numbers of their neighbours.

## Main definitions

* `Forest.size`: how many numbers a forest takes up.
* `Forest.members`: the numbers of the members of a forest.
* `Forest.layout`: the nodes of a forest, in order.
-/

namespace XmlHarvest

/-- The nodes of a list of attributes, the first of which has the number `id`. -/
def attributeNodes (parent : NodeId) (id : NodeId) : List (QName × String) → List Node
  | [] => []
  | (name, value) :: rest =>
    .leaf (.attribute name value) parent id :: attributeNodes parent (id + 1) rest

namespace Forest

/-- How many nodes a forest has, attributes included. -/
def size : Forest → Nat
  | .nil => 0
  | .element _ attributes content rest => 1 + attributes.length + content.size + rest.size
  | .text _ rest => 1 + rest.size
  | .comment _ rest => 1 + rest.size
  | .instruction _ _ rest => 1 + rest.size

/-- The numbers of the members of a forest whose first node has the number `id`. -/
def members (id : NodeId) : Forest → List NodeId
  | .nil => []
  | .element _ attributes content rest =>
    id :: rest.members (id + 1 + attributes.length + content.size)
  | .text _ rest => id :: rest.members (id + 1)
  | .comment _ rest => id :: rest.members (id + 1)
  | .instruction _ _ rest => id :: rest.members (id + 1)

/-- The nodes of a forest inside the node `parent`, the first with the number `id`. -/
def layout (parent id : NodeId) : Forest → List Node
  | .nil => []
  | .element name attributes content rest =>
    let inner := id + 1 + attributes.length
    let stop := inner + content.size
    { content := .element name
      parent := some parent
      attributes := List.range' (id + 1) attributes.length
      children := content.members inner
      stop := stop : Node } ::
        (attributeNodes id (id + 1) attributes ++ (content.layout id inner ++
          rest.layout parent stop))
  | .text chars rest => .leaf (.text chars) parent id :: rest.layout parent (id + 1)
  | .comment content rest => .leaf (.comment content) parent id :: rest.layout parent (id + 1)
  | .instruction target data rest =>
    .leaf (.instruction target data) parent id :: rest.layout parent (id + 1)

/-- The nodes of the document with this content, the root first. -/
def nodes (f : Forest) : List Node :=
  ⟨.root, none, [], f.members 1, 1 + f.size⟩ :: f.layout 0 1

end Forest

end XmlHarvest
