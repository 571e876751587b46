import XmlHarvest.Extraction.Cache
import XmlHarvest.Query.Evaluation

/-!
# Views

A view answers queries about one document. Documents are told apart by keys, and a context node
comes with the key of its document; a node of another document is refused.

## Main definitions

* `Extraction.View`: a document under its key.
* `Extraction.Located`: a node with the key of its document.
* `Extraction.View.evaluate`: the value of an expression.
* `Extraction.View.nodes`, `Extraction.View.text`, `Extraction.View.number`,
  `Extraction.View.boolean`: the value as a certain type.
* `Extraction.View.relative`: the nodes of an expression that starts from its context node.
-/

namespace XmlHarvest.Extraction

/-- A document under its key. -/
structure View where
  key : Nat
  document : Document

/-- A node with the key of its document. -/
structure Located where
  key : Nat
  node : NodeId
deriving DecidableEq, Repr

/-- Fail unless an expression starts from its context node. -/
def requireRelative (expression : String) : Except Error Unit :=
  if Query.isRelative expression then .ok () else .error (.notRelative expression)

namespace View

/-- A node of the viewed document. -/
def locate (v : View) (i : NodeId) : Located :=
  ⟨v.key, i⟩

/-- The node to start from: the root if no node is given. -/
def contextNode (v : View) (context : Option Located) : Except Error NodeId :=
  match context with
  | none => .ok Document.root
  | some i => if i.key = v.key then .ok i.node else .error .foreignNode

/-- The value of an expression. -/
def evaluate (v : View) (expression : String) (context : Option Located) : Run Query.Value := do
  let i ← v.contextNode context
  let entry ← compile expression
  match entry.query.evaluate v.document i with
  | .ok value => return value
  | .error cause => throw (.evaluation expression cause)

/-- The nodes that an expression selects, in document order. -/
def nodes (v : View) (expression : String) (context : Option Located) : Run (List NodeId) := do
  let value ← v.evaluate expression context
  match value.toNodes with
  | .ok is => return is
  | .error cause => throw (.evaluation expression cause)

/-- The node at an index among those that an expression selects. -/
def nodeAt (v : View) (expression : String) (index : Nat) (context : Option Located) :
    Run (Option NodeId) := do
  let is ← v.nodes expression context
  return is[index]?

/-- The first node that an expression selects. -/
def node (v : View) (expression : String) (context : Option Located) : Run (Option NodeId) :=
  v.nodeAt expression 0 context

/-- The text of an expression's value without the blanks around it. -/
def text (v : View) (expression : String) (context : Option Located) : Run String := do
  let value ← v.evaluate expression context
  return Text.trim (value.toText v.document)

/-- The number of an expression's value. -/
def number (v : View) (expression : String) (context : Option Located) : Run Float := do
  let value ← v.evaluate expression context
  return value.toNumber v.document

/-- The truth value of an expression's value. -/
def boolean (v : View) (expression : String) (context : Option Located) : Run Bool := do
  let value ← v.evaluate expression context
  return value.toBoolean

/-- The nodes that an expression selects from a node; it must start from the context node. -/
def relative (v : View) (i : Located) (expression : String) : Run (List NodeId) := do
  requireRelative expression
  v.nodes expression (some i)

end View

end XmlHarvest.Extraction
