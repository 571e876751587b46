import XmlHarvest.Document.Basic

/-!
# Axes

The directions in which a step can go from a node. Each axis lists its nodes in an order of its
own: forward axes in document order and reverse axes by distance, which is the opposite order.

## Main definitions

* `Axis`: the directions.
* `Axis.ofName?`: the axis with a given name.
* `Axis.isReverse`: whether nodes are listed nearest first.
* `Document.axis`: the nodes along an axis.
-/

namespace XmlHarvest

/-- The directions of a step. -/
inductive Axis where
  | child
  | descendant
  | parent
  | ancestor
  | followingSibling
  | precedingSibling
  | following
  | preceding
  | attribute
  | namespaces
  | itself
  | descendantOrSelf
  | ancestorOrSelf
deriving DecidableEq, Repr

namespace Axis

/-- Every axis. -/
def all : List Axis :=
  [.child, .descendant, .parent, .ancestor, .followingSibling, .precedingSibling, .following,
    .preceding, .attribute, .namespaces, .itself, .descendantOrSelf, .ancestorOrSelf]

/-- The name of an axis in expressions. -/
def name : Axis → String
  | .child => "child"
  | .descendant => "descendant"
  | .parent => "parent"
  | .ancestor => "ancestor"
  | .followingSibling => "following-sibling"
  | .precedingSibling => "preceding-sibling"
  | .following => "following"
  | .preceding => "preceding"
  | .attribute => "attribute"
  | .namespaces => "namespace"
  | .itself => "self"
  | .descendantOrSelf => "descendant-or-self"
  | .ancestorOrSelf => "ancestor-or-self"

/-- The axis with a name. -/
def ofName? (name : String) : Option Axis :=
  all.find? fun a => a.name = name

/-- Whether the nodes along the axis are numbered from the nearest on, against document order. -/
def isReverse : Axis → Bool
  | .parent | .ancestor | .ancestorOrSelf | .precedingSibling | .preceding => true
  | _ => false

end Axis

/-- The nodes along an axis, in the order of the axis. The namespace axis has no nodes. -/
def Document.axis (d : Document) (axis : Axis) (i : NodeId) : List NodeId :=
  match axis with
  | .child => d.children i
  | .descendant => d.descendants i
  | .descendantOrSelf => i :: d.descendants i
  | .parent => (d.parent? i).toList
  | .ancestor => d.ancestors i
  | .ancestorOrSelf => i :: d.ancestors i
  | .followingSibling => d.followingSiblings i
  | .precedingSibling => d.precedingSiblings i
  | .following => d.following i
  | .preceding => (d.preceding i).reverse
  | .attribute => d.attributes i
  | .itself => [i]
  | .namespaces => []

end XmlHarvest
