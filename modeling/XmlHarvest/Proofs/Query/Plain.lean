import Mathlib
import XmlHarvest.Proofs.Query.Order

/-!
# Plain evaluation

Evaluation leaves nodes as they are where a forward step starts from a single node. The plain way is
to put them in order after every step. Both ways lead to the same result, which includes the
predicates inside the steps, whose values may depend on the positions of nodes.

A run on a document is computed with equations of list and character functions that are in no part
of Mathlib but the whole. So this module imports all of it.

## Main definitions

* `Query.Expr.evaluatePlain`: the value of an expression, nodes being put in order after every
  step.

## Main results

* `Query.evaluatePlain_eq`: plain evaluation is evaluation.
* `Query.evaluate_sorted_and_plain`: node-sets are in order, and the shortcut does not show.
-/

namespace XmlHarvest.Query

section Definitions

variable (d : Document)

mutual

/-- The value of an expression in a focus, nodes being put in order after every step. -/
def Expr.evaluatePlain (focus : Focus) : Expr resolved → Except Error Value
  | .literal text => .ok (.text text)
  | .number value => .ok (.number value)
  | .reference name => nomatch name
  | .call f arguments => do call d f (← evaluateAllPlain focus arguments) focus
  | .binary .or left right => do
    if (← left.evaluatePlain focus).toBoolean then return .boolean true
    else return .boolean (← right.evaluatePlain focus).toBoolean
  | .binary .and left right => do
    if (← left.evaluatePlain focus).toBoolean then
      return .boolean (← right.evaluatePlain focus).toBoolean
    else return .boolean false
  | .binary op left right => do
    let l ← left.evaluatePlain focus
    let r ← right.evaluatePlain focus
    return op.apply d l r
  | .negate operand => do return .number (-(← operand.evaluatePlain focus).toNumber d)
  | .union left right => do
    let is ← (← left.evaluatePlain focus).toNodes
    let js ← (← right.evaluatePlain focus).toNodes
    return .nodes (inOrder (is ++ js))
  | .filter primary predicates => do
    let is ← (← primary.evaluatePlain focus).toNodes
    return .nodes (← keepAllPlain predicates is)
  | .path start steps => do
    let is ← start.evaluatePlain focus
    return .nodes (← followPlain steps is)

/-- The values of expressions, in order. -/
def evaluateAllPlain (focus : Focus) : List (Expr resolved) → Except Error (List Value)
  | [] => .ok []
  | e :: es => do
    let v ← e.evaluatePlain focus
    let vs ← evaluateAllPlain focus es
    return v :: vs

/-- The nodes that a path starts from. -/
def Start.evaluatePlain (focus : Focus) : Start resolved → Except Error (List NodeId)
  | .root => .ok [Document.root]
  | .context => .ok [focus.node]
  | .expr e => do (← e.evaluatePlain focus).toNodes

/-- The nodes for which all predicates hold. -/
def keepAllPlain : List (Expr resolved) → List NodeId → Except Error (List NodeId)
  | [], is => .ok is
  | p :: ps, is => do
    let kept ← keepWhere (fun focus => p.evaluatePlain focus) is
    keepAllPlain ps kept

/-- The nodes that a step selects from one node, in the order of its axis. -/
def Step.selectPlain (i : NodeId) : Step resolved → Except Error (List NodeId)
  | .mk axis test predicates =>
    keepAllPlain predicates ((d.axis axis i).filter fun j => passes d axis j test)

/-- The nodes that steps select one after the other, put in order after each of them. -/
def followPlain : List (Step resolved) → List NodeId → Except Error (List NodeId)
  | [], is => .ok is
  | s :: ss, is => do
    let selected ← is.mapM fun i => s.selectPlain i
    followPlain ss (inOrder selected.flatten)

end

end Definitions

variable {d : Document}

/-! ## Both ways of evaluation agree -/

/-- Nodes that a step has selected are put in order with the shortcut as well. -/
lemma shortcut_eq_inOrder {s : Step resolved} {is : List NodeId} {selected : List (List NodeId)}
    (h : (is.mapM fun i => s.select d i) = .ok selected) :
    (if is.length > 1 || s.axis.isReverse then inOrder selected.flatten else selected.flatten) =
      inOrder selected.flatten := by
  split
  · rfl
  · rename_i hc
    simp only [gt_iff_lt, Bool.or_eq_true, decide_eq_true_iff, not_or, Bool.not_eq_true,
      Nat.not_lt] at hc
    exact (inOrder_eq_self (flatten_mapM_select_sorted hc.2 hc.1 h)).symm

mutual

/-- **Plain evaluation is evaluation.**

**Proof sketch.** Induction on the expression, together with its predicates, steps and arguments.
The two ways differ in the steps of a path only, and there by putting nodes in order that are in
order already (`shortcut_eq_inOrder`). -/
theorem evaluatePlain_eq (focus : Focus) :
    ∀ e : Expr resolved, e.evaluatePlain d focus = e.evaluate d focus
  | .literal _ => by rw [Expr.evaluatePlain, Expr.evaluate]
  | .number _ => by rw [Expr.evaluatePlain, Expr.evaluate]
  | .reference name => nomatch name
  | .call f vs => by rw [Expr.evaluatePlain, Expr.evaluate, evaluateAllPlain_eq focus vs]
  | .binary op l r => by
    have hl := evaluatePlain_eq focus l
    have hr := evaluatePlain_eq focus r
    cases op <;> simp only [Expr.evaluatePlain, Expr.evaluate, hl, hr]
  | .negate e => by rw [Expr.evaluatePlain, Expr.evaluate, evaluatePlain_eq focus e]
  | .union l r => by
    rw [Expr.evaluatePlain, Expr.evaluate, evaluatePlain_eq focus l, evaluatePlain_eq focus r]
  | .filter e ps => by
    rw [Expr.evaluatePlain, Expr.evaluate, evaluatePlain_eq focus e]
    simp only [keepAllPlain_eq ps]
  | .path start ss => by
    rw [Expr.evaluatePlain, Expr.evaluate, Start.evaluatePlain_eq focus start]
    simp only [followPlain_eq ss]

/-- Arguments have the same values. -/
theorem evaluateAllPlain_eq (focus : Focus) :
    ∀ es : List (Expr resolved), evaluateAllPlain d focus es = evaluateAll d focus es
  | [] => by rw [evaluateAllPlain, evaluateAll]
  | e :: es => by
    rw [evaluateAllPlain, evaluateAll, evaluatePlain_eq focus e, evaluateAllPlain_eq focus es]

/-- Paths start from the same nodes. -/
theorem Start.evaluatePlain_eq (focus : Focus) :
    ∀ s : Start resolved, s.evaluatePlain d focus = s.evaluate d focus
  | .root => by rw [Start.evaluatePlain, Start.evaluate]
  | .context => by rw [Start.evaluatePlain, Start.evaluate]
  | .expr e => by rw [Start.evaluatePlain, Start.evaluate, Query.evaluatePlain_eq focus e]

/-- Predicates keep the same nodes. -/
theorem keepAllPlain_eq :
    ∀ (ps : List (Expr resolved)) (is : List NodeId), keepAllPlain d ps is = keepAll d ps is
  | [], is => by rw [keepAllPlain, keepAll]
  | p :: ps, is => by
    have hp : (fun focus => p.evaluatePlain d focus) = fun focus => p.evaluate d focus :=
      funext fun focus => evaluatePlain_eq focus p
    rw [keepAllPlain, keepAll, hp]
    simp only [keepAllPlain_eq ps]

/-- Steps select the same nodes from a node. -/
theorem selectPlain_eq (i : NodeId) :
    ∀ s : Step resolved, s.selectPlain d i = s.select d i
  | .mk _ _ ps => by rw [Step.selectPlain, Step.select, keepAllPlain_eq ps]

/-- Steps lead to the same nodes. -/
theorem followPlain_eq :
    ∀ (ss : List (Step resolved)) (is : List NodeId), followPlain d ss is = follow d ss is
  | [], is => by rw [followPlain, follow]
  | s :: ss, is => by
    have hs : (fun i => s.selectPlain d i) = fun i => s.select d i :=
      funext fun i => selectPlain_eq i s
    rw [followPlain, follow, hs]
    cases hselected : is.mapM fun i => s.select d i with
    | error e => rfl
    | ok selected =>
      show followPlain d ss (inOrder selected.flatten) = follow d ss _
      rw [followPlain_eq ss]
      exact congrArg (follow d ss) (shortcut_eq_inOrder hselected).symm

end

/-- **Node-sets are in document order and the shortcut does not show.** In every document, every
expression and every focus, a node-set comes out in document order without repetition, and the value
or fault is the one of plain evaluation.

**Proof sketch.** Node-sets are in order by induction on the expression (`evaluate_sorted`). Plain
evaluation differs in the steps of paths only, where it puts nodes in order once more: a forward
step from a single node leaves them in order already (`shortcut_eq_inOrder`). So it gives the same,
again by induction (`evaluatePlain_eq`). -/
theorem evaluate_sorted_and_plain (d : Document) (e : Expr resolved) (focus : Focus) :
    (∀ is, e.evaluate d focus = .ok (.nodes is) → is.Pairwise (· < ·)) ∧
      e.evaluate d focus = e.evaluatePlain d focus :=
  ⟨fun _ h => evaluate_sorted h, (evaluatePlain_eq focus e).symm⟩

/-- The elements before two of their siblings: a reverse axis finds some of them from both. -/
theorem evaluate_preceding_siblings_sorted : ∃ (d : Document) (q : Compiled),
    Document.parse "<a><b/><c/><b/><b/></a>" = .ok d ∧
      compile .initial "//b/preceding-sibling::*" = .ok q ∧
      q.root.evaluate d ⟨Document.root, 1, 1⟩ = .ok (.nodes [2, 3, 4]) ∧
      q.root.evaluatePlain d ⟨Document.root, 1, 1⟩ = .ok (.nodes [2, 3, 4]) ∧
      List.Pairwise (· < ·) [2, 3, 4] := by
  have h : ((Document.parse "<a><b/><c/><b/><b/></a>").toOption.bind fun d =>
      (compile .initial "//b/preceding-sibling::*").toOption.bind fun q =>
        (q.evaluateNodes d Document.root).toOption) = some [2, 3, 4] := by cbv
  obtain ⟨d, hd, h⟩ := Option.bind_eq_some_iff.1 h
  obtain ⟨q, hq, h⟩ := Option.bind_eq_some_iff.1 h
  obtain ⟨v, hv, h⟩ := bind_eq_ok_iff.1 (toOption_eq_some_iff.1 h)
  rw [toNodes_eq_ok_iff.1 h] at hv
  obtain ⟨hsorted, hplain⟩ := evaluate_sorted_and_plain d q.root ⟨Document.root, 1, 1⟩
  exact ⟨d, q, toOption_eq_some_iff.1 hd, toOption_eq_some_iff.1 hq, hv, hplain ▸ hv,
    hsorted [2, 3, 4] hv⟩

end XmlHarvest.Query
