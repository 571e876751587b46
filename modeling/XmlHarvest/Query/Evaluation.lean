import XmlHarvest.Query.Call
import XmlHarvest.Query.Comparison
import XmlHarvest.Query.Resolution

/-!
# Evaluation

The value of an expression in a focus. A path is evaluated step by step: every node that the steps
before selected contributes the nodes along the axis that pass the test and the predicates, with
positions counted for each of these nodes by itself. Node-sets come out in document order without
repetition.

## Main definitions

* `Query.passes`: whether a node passes a node test.
* `Query.keepWhere`: the nodes for which a predicate holds.
* `Query.inOrder`: nodes in document order, none twice.
* `Query.Expr.evaluate`: the value of an expression.
* `Query.Compiled.evaluate`: the value of a compiled expression at a node.
-/

namespace XmlHarvest.Query

variable (d : Document)

/-- Whether a node passes a node test. A name, a namespace and `*` ask for a node of the axis's own
kind: an attribute on the attribute axis and an element on the others. -/
def passes (axis : Axis) (i : NodeId) : NodeTest resolved → Bool
  | .named n => isPrincipal && d.localName i = n.localPart && d.space? i = n.space
  | .inSpace space => isPrincipal && d.space? i = some space
  | .any => isPrincipal
  | .node => true
  | .text => d.kind i = .text
  | .comment => d.kind i = .comment
  | .instruction target? => d.kind i = .instruction && target?.all (· = d.localName i)
where
  isPrincipal : Bool := d.kind i = if axis = .attribute then .attribute else .element

/-- The greatest difference at which a number still counts as a position is below this bound, the
distance from 1 to the next double. -/
def positionTolerance : Float :=
  Number.ofRatio false 1 (Nat.pow 2 52)

/-- Whether a predicate with a given value keeps the node at a position: a number must be that
position, and any other value must be true. -/
def keeps (position : Nat) : Value → Bool
  | .number x => (x - Number.ofNat position).abs < positionTolerance
  | v => v.toBoolean

/-- The nodes for which a predicate holds, in the given order; `test` evaluates the predicate. The
first of the nodes has the given position. -/
def keepFrom (test : Focus → Except Error Value) (size position : Nat) :
    List NodeId → Except Error (List NodeId)
  | [] => .ok []
  | i :: is => do
    let v ← test ⟨i, position, size⟩
    let rest ← keepFrom test size (position + 1) is
    return if keeps position v then i :: rest else rest

/-- The nodes for which a predicate holds, in the given order. -/
def keepWhere (test : Focus → Except Error Value) (is : List NodeId) :
    Except Error (List NodeId) :=
  keepFrom test is.length 1 is

/-- Nodes in document order, none twice. -/
def inOrder (is : List NodeId) : List NodeId :=
  (is.mergeSort fun i j => i ≤ j).eraseReps

/-- The value of an operator that looks at both operands. -/
def BinaryOp.apply (op : BinaryOp) (l r : Value) : Value :=
  match op with
  | .or => .boolean (l.toBoolean || r.toBoolean)
  | .and => .boolean (l.toBoolean && r.toBoolean)
  | .eq => .boolean (Relation.holds d .eq l r)
  | .ne => .boolean (Relation.holds d .ne l r)
  | .lt => .boolean (Relation.holds d .lt l r)
  | .le => .boolean (Relation.holds d .le l r)
  | .gt => .boolean (Relation.holds d .gt l r)
  | .ge => .boolean (Relation.holds d .ge l r)
  | .add => .number (l.toNumber d + r.toNumber d)
  | .sub => .number (l.toNumber d - r.toNumber d)
  | .mul => .number (l.toNumber d * r.toNumber d)
  | .div => .number (l.toNumber d / r.toNumber d)
  | .mod => .number (Number.remainder (l.toNumber d) (r.toNumber d))

mutual

/-- The value of an expression in a focus. The operators `or` and `and` leave out their right
operand when the left one decides. -/
def Expr.evaluate (focus : Focus) : Expr resolved → Except Error Value
  | .literal text => .ok (.text text)
  | .number value => .ok (.number value)
  | .reference name => nomatch name
  | .call f arguments => do call d f (← evaluateAll focus arguments) focus
  | .binary .or left right => do
    if (← left.evaluate focus).toBoolean then return .boolean true
    else return .boolean (← right.evaluate focus).toBoolean
  | .binary .and left right => do
    if (← left.evaluate focus).toBoolean then return .boolean (← right.evaluate focus).toBoolean
    else return .boolean false
  | .binary op left right => do
    let l ← left.evaluate focus
    let r ← right.evaluate focus
    return op.apply d l r
  | .negate operand => do return .number (-(← operand.evaluate focus).toNumber d)
  | .union left right => do
    let is ← (← left.evaluate focus).toNodes
    let js ← (← right.evaluate focus).toNodes
    return .nodes (inOrder (is ++ js))
  | .filter primary predicates => do
    let is ← (← primary.evaluate focus).toNodes
    return .nodes (← keepAll predicates is)
  | .path start steps => do
    let is ← start.evaluate focus
    return .nodes (← follow steps is)

/-- The values of expressions, in order. -/
def evaluateAll (focus : Focus) : List (Expr resolved) → Except Error (List Value)
  | [] => .ok []
  | e :: es => do
    let v ← e.evaluate focus
    let vs ← evaluateAll focus es
    return v :: vs

/-- The nodes that a path starts from. -/
def Start.evaluate (focus : Focus) : Start resolved → Except Error (List NodeId)
  | .root => .ok [Document.root]
  | .context => .ok [focus.node]
  | .expr e => do (← e.evaluate focus).toNodes

/-- The nodes for which all predicates hold. Positions and sizes count the nodes that the
predicates before have kept. -/
def keepAll : List (Expr resolved) → List NodeId → Except Error (List NodeId)
  | [], is => .ok is
  | p :: ps, is => do
    let kept ← keepWhere (fun focus => p.evaluate focus) is
    keepAll ps kept

/-- The nodes that a step selects from one node, in the order of its axis. -/
def Step.select (i : NodeId) : Step resolved → Except Error (List NodeId)
  | .mk axis test predicates =>
    keepAll predicates ((d.axis axis i).filter fun j => passes d axis j test)

/-- The nodes that steps select one after the other. What a forward step selects from a single node
is in order already. -/
def follow : List (Step resolved) → List NodeId → Except Error (List NodeId)
  | [], is => .ok is
  | s :: ss, is => do
    let selected ← is.mapM fun i => s.select i
    let next := selected.flatten
    follow ss (if is.length > 1 || s.axis.isReverse then inOrder next else next)

end

/-- The value of a compiled expression at a node, which is alone in its focus. -/
def Compiled.evaluate (c : Compiled) (i : NodeId) : Except Error Value :=
  c.root.evaluate d ⟨i, 1, 1⟩

/-- The nodes that a compiled expression selects from a node. -/
def Compiled.evaluateNodes (c : Compiled) (i : NodeId) : Except Error (List NodeId) := do
  (← c.evaluate d i).toNodes

end XmlHarvest.Query
