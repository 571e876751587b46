import XmlHarvest.Document.Builder.WellFormed

/-!
# Documents

Nodes are named by their numbers; a number that no node has names an empty node. What a node says
and which nodes are around it is read off the numbered nodes.

## Main definitions

* `Document.parse`: the document that a text spells.
* `Document.name?`, `Document.value?`, `Document.stringValue`: what a node says.
* `Document.descendants`, `Document.following`, `Document.preceding`, `Document.ancestors`: the
  nodes around a node.
* `Document.lang?`, `Document.inheritedLang?`: the language of a node.
-/

namespace XmlHarvest

namespace Document

/-- The document that a text spells. A fault of the text counts unless there are too many nodes
before it. -/
def parse (text : String) : Except Markup.Error Document :=
  let reading := Markup.read text.toList
  match reading.fault? with
  | none => Builder.build reading.events
  | some fault => do
    let _ ← Builder.initial.run reading.events
    .error fault

/-! ## Nodes -/

variable (d : Document)

/-- The number of nodes. -/
def size : Nat :=
  d.nodes.size

/-- Whether there is nothing but the root. -/
def isEmpty : Bool :=
  d.size ≤ 1

/-- The number of the root. -/
def root : NodeId := 0

/-- The node with a number. -/
def node (i : NodeId) : Node :=
  nodeAt d.nodes i

/-- The kind of a node. -/
def kind (i : NodeId) : Kind :=
  (d.node i).kind

/-- The name of a node, if nodes of its kind have one. -/
def name? (i : NodeId) : Option QName :=
  (d.node i).content.name?

/-- The local part of the name of a node. -/
def localName (i : NodeId) : String :=
  (d.name? i).elim "" QName.localPart

/-- The namespace of the name of a node. -/
def space? (i : NodeId) : Option String :=
  (d.name? i).bind QName.space

/-- The text of a node that has no content of its own. -/
def value? (i : NodeId) : Option String :=
  (d.node i).content.value?

/-- The node around a node; for an attribute, its element. -/
def parent? (i : NodeId) : Option NodeId :=
  (d.node i).parent

/-- The attributes of a node. -/
def attributes (i : NodeId) : List NodeId :=
  (d.node i).attributes

/-- The members of the content of a node. -/
def children (i : NodeId) : List NodeId :=
  (d.node i).children

/-- One past the last node inside a node. -/
def stop (i : NodeId) : Nat :=
  (d.node i).stop

/-- The first element at the top of the document. -/
def rootElement? : Option NodeId :=
  (d.children root).find? fun i => d.kind i = .element

/-! ## Neighbours -/

/-- The nodes from `first` up to `last`, without attributes. -/
def span (first last : NodeId) : List NodeId :=
  (List.range' first (last - first)).filter fun i => d.kind i ≠ .attribute

/-- The nodes inside a node. -/
def descendants (i : NodeId) : List NodeId :=
  d.span (i + 1) (d.stop i)

/-- The nodes behind a node and not inside it. -/
def following (i : NodeId) : List NodeId :=
  d.span (d.stop i) d.size

/-- The nodes before a node and not around it, in document order. -/
def preceding (i : NodeId) : List NodeId :=
  (d.span 0 i).filter fun j => d.stop j ≤ i

/-- The nodes around a node, the nearest first. A node has a smaller number than the nodes inside
it, so the search ends. -/
def ancestors (i : NodeId) : List NodeId :=
  match d.parent? i with
  | some p => if p < i then p :: ancestors p else []
  | none => []
termination_by i

/-- The nodes that have the same parent as a node, itself included. Attributes have no
siblings. -/
def siblings (i : NodeId) : List NodeId :=
  if d.kind i = .attribute then []
  else
    match d.parent? i with
    | some p => d.children p
    | none => []

/-- The siblings behind a node. -/
def followingSiblings (i : NodeId) : List NodeId :=
  (d.siblings i).filter fun j => i < j

/-- The siblings before a node, the nearest first. -/
def precedingSiblings (i : NodeId) : List NodeId :=
  (d.siblings i).reverse.filter fun j => j < i

/-- Whether the node `j` is inside the node `i`. -/
def isAncestorOf (i j : NodeId) : Bool :=
  i < j && j < d.stop i

/-! ## Values -/

/-- The characters of a text node, and nothing for other nodes. -/
def textOf (i : NodeId) : String :=
  match (d.node i).content with
  | .text chars => chars
  | _ => ""

/-- The string-value of a node: for the root and for elements all texts inside, one after the
other, and for other nodes their text. -/
def stringValue (i : NodeId) : String :=
  match d.kind i with
  | .root | .element => String.join ((List.range' (i + 1) (d.stop i - (i + 1))).map d.textOf)
  | _ => (d.value? i).getD ""

/-- The value of the attribute with the given name of a node. -/
def attribute? (i : NodeId) (space : Option String) (localPart : String) : Option String :=
  ((d.attributes i).find? fun a => d.localName a = localPart && d.space? a = space).bind d.value?

/-! ## Languages -/

/-- The element that a node belongs to: itself, or the element around it. The root and the nodes
at the top of the document belong to none. -/
def owner? (i : NodeId) : Option NodeId :=
  match d.kind i with
  | .element => some i
  | .root => none
  | _ => (d.parent? i).filter fun p => d.kind p = .element

/-- The language that an element declares. -/
def declaredLang? (i : NodeId) : Option String :=
  d.attribute? i (some xmlSpace) "lang"

/-- The language that the element of a node declares. -/
def lang? (i : NodeId) : Option String :=
  (d.owner? i).bind d.declaredLang?

/-- The language that the nearest element around a node declares, its own element first. -/
def inheritedLang? (i : NodeId) : Option String :=
  (d.owner? i).bind fun e => (e :: d.ancestors e).findSome? d.declaredLang?

end Document

end XmlHarvest
