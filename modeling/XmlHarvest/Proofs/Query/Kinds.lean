import Mathlib.Data.List.Basic
import XmlHarvest.Proofs.Query.Order

/-!
# Kinds of values

What kind of value an expression has can be read off its top: the operator, the function or the
form of the expression decides, whatever the document and the focus are. Evaluation can fail for
one reason only, namely that nodes are needed and something else is found. Compilation checks the
number of arguments of each call, so no function lacks one, and an expression that asks for nodes
only where unions, filters and paths stand does not fail at all.

## Main definitions

* `Query.Kind`: the kinds of values.
* `Query.Value.kind`, `Query.Expr.kind`: the kind of a value, and of an expression by its top.
* `Query.Expr.Everywhere`: a condition on an expression and all expressions inside it.
* `Query.Expr.CallFits`, `Query.Expr.AsksNodesOfNodes`: the conditions on one expression.

## Main results

* `Query.evaluate_kind`: a value is of the kind of its expression.
* `Query.evaluate_failsForNodes`: why evaluation fails.
* `Query.resolve_callFits`: what compilation checks.
* `Query.compiled_sound`: what holds of every compiled expression.
-/

namespace XmlHarvest.Query

/-! ## Kinds -/

/-- The kinds of values. -/
inductive Kind where
  | nodes
  | text
  | number
  | boolean
deriving DecidableEq, Repr

/-- The kind of a value. -/
def Value.kind : Value → Kind
  | .nodes _ => .nodes
  | .text _ => .text
  | .number _ => .number
  | .boolean _ => .boolean

/-- The kind of the values of an operator. -/
def BinaryOp.kind : BinaryOp → Kind
  | .or | .and | .eq | .ne | .lt | .le | .gt | .ge => .boolean
  | .add | .sub | .mul | .div | .mod => .number

/-- The kind of the values of a function. -/
def Function.kind : Function → Kind
  | .last | .position | .count | .stringLength | .number | .sum | .floor | .ceiling | .round =>
    .number
  | .localName | .namespaceUri | .name | .string | .concat | .substringBefore | .substringAfter
  | .substring | .normalizeSpace | .translate => .text
  | .startsWith | .endsWith | .contains | .boolean | .not | .true | .false | .lang => .boolean

/-- Whether an expression is a union, a filter or a path. -/
def Expr.isNodeSet : Expr resolved → Bool
  | .union .. | .filter .. | .path .. => true
  | _ => false

/-- The kind of the values of an expression, by its top. -/
def Expr.kind : Expr resolved → Kind
  | .literal _ => .text
  | .number _ | .negate _ => .number
  | .reference name => nomatch name
  | .call f _ => f.kind
  | .binary op _ _ => op.kind
  | .union .. | .filter .. | .path .. => .nodes

/-- Unions, filters and paths have node-sets for their values. -/
lemma kind_of_isNodeSet {e : Expr resolved} (h : e.isNodeSet) : e.kind = .nodes := by
  cases e with
  | union | filter | path => rfl
  | reference name => nomatch name
  | literal | number | negate | call | binary => cases h

/-! ## Conditions on all parts of an expression -/

section Everywhere

variable {v : Vocabulary} (p : Expr v → Prop)

mutual

/-- A condition holds of an expression and of all expressions inside it: operands, arguments,
predicates and starts of paths. -/
def Expr.Everywhere : Expr v → Prop
  | .literal text => p (.literal text)
  | .number value => p (.number value)
  | .reference name => p (.reference name)
  | .call f arguments => p (.call f arguments) ∧ EverywhereIn arguments
  | .binary op left right => p (.binary op left right) ∧ left.Everywhere ∧ right.Everywhere
  | .negate operand => p (.negate operand) ∧ operand.Everywhere
  | .union left right => p (.union left right) ∧ left.Everywhere ∧ right.Everywhere
  | .filter primary predicates =>
    p (.filter primary predicates) ∧ primary.Everywhere ∧ EverywhereIn predicates
  | .path start steps => p (.path start steps) ∧ start.Everywhere ∧ EverywhereAlong steps

/-- A condition holds everywhere in expressions. -/
def EverywhereIn : List (Expr v) → Prop
  | [] => True
  | e :: es => e.Everywhere ∧ EverywhereIn es

/-- A condition holds everywhere in the start of a path. -/
def Start.Everywhere : Start v → Prop
  | .root => True
  | .context => True
  | .expr e => e.Everywhere

/-- A condition holds everywhere in the predicates of a step. -/
def Step.Everywhere : Step v → Prop
  | .mk _ _ predicates => EverywhereIn predicates

/-- A condition holds everywhere in steps. -/
def EverywhereAlong : List (Step v) → Prop
  | [] => True
  | s :: ss => s.Everywhere ∧ EverywhereAlong ss

end

end Everywhere

/-- A call has a number of arguments that its function takes. -/
def Expr.CallFits : Expr resolved → Prop
  | .call f arguments => f.accepts arguments.length
  | _ => True

/-- Whether a function takes nodes only. -/
def Function.TakesNodes : Function → Prop
  | .count | .sum | .localName | .namespaceUri | .name => True
  | _ => False

/-- Where an expression needs nodes, unions, filters and paths stand: as members of a union, below
predicates, at the start of a path and as arguments of functions that take nodes only. -/
def Expr.AsksNodesOfNodes : Expr resolved → Prop
  | .union left right => left.isNodeSet ∧ right.isNodeSet
  | .filter primary _ => primary.isNodeSet
  | .path (.expr e) _ => e.isNodeSet
  | .call f arguments => f.TakesNodes → ∀ e ∈ arguments, e.isNodeSet
  | _ => True

/-! ## The kind of a value -/

variable {d : Document}

/-- The value of a call is of the kind of its function. -/
lemma call_kind {f : Function} {vs : List Value} {focus : Focus} {v : Value}
    (h : call d f vs focus = .ok v) : v.kind = f.kind := by
  cases f with
  | count | sum =>
    obtain ⟨_, -, h⟩ := bind_eq_ok_iff.1 h
    obtain ⟨_, -, h⟩ := bind_eq_ok_iff.1 h
    cases h
    rfl
  | localName | namespaceUri | name | substring | boolean | not | floor | ceiling | round =>
    obtain ⟨_, -, h⟩ := bind_eq_ok_iff.1 h
    cases h
    rfl
  | last | position | string | concat | startsWith | endsWith | contains | substringBefore
  | substringAfter | stringLength | normalizeSpace | translate | true | false | lang | number =>
    cases h
    rfl

/-- The value of an operator is of the kind of the operator. -/
lemma apply_kind (op : BinaryOp) (l r : Value) : (op.apply d l r).kind = op.kind := by
  cases op <;> rfl

/-- The value of a binary operation is of the kind of its operator, whether both operands are
looked at or not. -/
lemma evaluate_binary_kind {op : BinaryOp} {l r : Expr resolved} {focus : Focus} {v : Value}
    (h : (Expr.binary op l r).evaluate d focus = .ok v) : v.kind = op.kind := by
  cases op with
  | or =>
    rw [Expr.evaluate] at h
    obtain ⟨_, -, h⟩ := bind_eq_ok_iff.1 h
    split at h
    · cases h
      rfl
    · obtain ⟨_, -, h⟩ := bind_eq_ok_iff.1 h
      cases h
      rfl
  | and =>
    rw [Expr.evaluate] at h
    obtain ⟨_, -, h⟩ := bind_eq_ok_iff.1 h
    split at h
    · obtain ⟨_, -, h⟩ := bind_eq_ok_iff.1 h
      cases h
      rfl
    · cases h
      rfl
  | eq | ne | lt | le | gt | ge | add | sub | mul | div | mod =>
    rw [Expr.evaluate] at h
    · obtain ⟨_, -, h⟩ := bind_eq_ok_iff.1 h
      obtain ⟨_, -, h⟩ := bind_eq_ok_iff.1 h
      rw [← pure_eq_ok_iff.1 h]
      exact apply_kind _ _ _
    all_goals simp

/-- **A value is of the kind of its expression**, in every document and every focus. -/
lemma evaluate_kind {e : Expr resolved} {focus : Focus} {v : Value}
    (h : e.evaluate d focus = .ok v) : v.kind = e.kind := by
  cases e with
  | literal | number =>
    rw [Expr.evaluate] at h
    cases h
    rfl
  | reference name => cases name
  | call f vs =>
    rw [Expr.evaluate] at h
    obtain ⟨_, -, h⟩ := bind_eq_ok_iff.1 h
    exact call_kind h
  | binary op l r => exact evaluate_binary_kind h
  | negate e =>
    rw [Expr.evaluate] at h
    obtain ⟨_, -, h⟩ := bind_eq_ok_iff.1 h
    cases h
    rfl
  | union l r =>
    rw [Expr.evaluate] at h
    obtain ⟨_, -, h⟩ := bind_eq_ok_iff.1 h
    obtain ⟨_, -, h⟩ := bind_eq_ok_iff.1 h
    obtain ⟨_, -, h⟩ := bind_eq_ok_iff.1 h
    obtain ⟨_, -, h⟩ := bind_eq_ok_iff.1 h
    cases h
    rfl
  | filter e ps =>
    rw [Expr.evaluate] at h
    obtain ⟨_, -, h⟩ := bind_eq_ok_iff.1 h
    obtain ⟨_, -, h⟩ := bind_eq_ok_iff.1 h
    obtain ⟨_, -, h⟩ := bind_eq_ok_iff.1 h
    cases h
    rfl
  | path start ss =>
    rw [Expr.evaluate] at h
    obtain ⟨_, -, h⟩ := bind_eq_ok_iff.1 h
    obtain ⟨_, -, h⟩ := bind_eq_ok_iff.1 h
    cases h
    rfl

/-- The values of expressions are of their kinds. -/
lemma evaluateAll_kinds {focus : Focus} {es : List (Expr resolved)} {vs : List Value}
    (h : evaluateAll d focus es = .ok vs) : vs.map Value.kind = es.map Expr.kind := by
  induction es generalizing vs with
  | nil =>
    rw [evaluateAll] at h
    cases h
    rfl
  | cons e es ih =>
    rw [evaluateAll] at h
    obtain ⟨v, hv, h⟩ := bind_eq_ok_iff.1 h
    obtain ⟨vs, hvs, h⟩ := bind_eq_ok_iff.1 h
    cases h
    rw [List.map_cons, List.map_cons, evaluate_kind hv, ih hvs]

/-! ## Why evaluation fails -/

/-- A computation fails, if at all, because nodes were needed and something else was found, and
only if `lax` holds. -/
def FailsForNodes {α : Type} (lax : Prop) (x : Except Error α) : Prop :=
  ∀ err, x = .error err → lax ∧ ∃ found, err = .notNodes found

namespace FailsForNodes

variable {lax : Prop} {α β : Type}

/-- A result is no failure. -/
lemma ok (a : α) : FailsForNodes lax (.ok a) :=
  fun _ h => nomatch h

/-- Two computations, one after the other, fail for the reasons of each. -/
lemma bind {x : Except Error α} {f : α → Except Error β} (hx : FailsForNodes lax x)
    (hf : ∀ a, x = .ok a → FailsForNodes lax (f a)) : FailsForNodes lax (x >>= f) := by
  intro err h
  cases x with
  | error cause =>
    cases h
    exact hx _ rfl
  | ok a => exact hf a rfl err h

/-- What is computed from a result does not add failures. -/
lemma map {x : Except Error α} (hx : FailsForNodes lax x) (f : α → β) :
    FailsForNodes lax (f <$> x) := by
  intro err h
  cases x with
  | error cause =>
    cases h
    exact hx _ rfl
  | ok a => cases h

/-- A computation that never fails for lack of nodes has a result. -/
lemma exists_ok {x : Except Error α} (hx : FailsForNodes False x) : ∃ a, x = .ok a := by
  cases x with
  | error cause => exact absurd (hx cause rfl).1 not_false
  | ok a => exact ⟨a, rfl⟩

/-- Reading a value as a node-set fails only if it is none. -/
lemma toNodes {v : Value} (hv : ¬lax → v.kind = .nodes) : FailsForNodes lax v.toNodes := by
  intro err h
  cases v with
  | nodes is => cases h
  | text | number | boolean =>
    cases h
    refine ⟨by_contra fun hlax => ?_, _, rfl⟩
    cases hv hlax

end FailsForNodes

variable {lax : Prop}

/-- An argument that has to be there is there. -/
lemma required_failsForNodes {v? : Option Value} (h : v?.isSome) :
    FailsForNodes lax (required v?) := by
  cases v? with
  | none => cases h
  | some v => exact .ok v

/-- An argument of a function that takes as many is there. -/
lemma isSome_of_accepts {f : Function} {vs : List Value} (h : f.accepts vs.length) {i : Nat}
    (hi : i < f.minArity) : vs[i]?.isSome := by
  simp only [Function.accepts, Bool.and_eq_true, decide_eq_true_iff] at h
  have : i < vs.length := Nat.lt_of_lt_of_le hi h.1
  simp [this]

/-- A call with a number of arguments that its function takes fails only for lack of nodes. -/
lemma call_failsForNodes {f : Function} {vs : List Value} {focus : Focus}
    (hfits : f.accepts vs.length)
    (hnodes : ¬lax → f.TakesNodes → ∀ v ∈ vs, v.kind = .nodes) :
    FailsForNodes lax (call d f vs focus) := by
  -- the arguments that a function insists on
  have hrequired : ∀ i, i < f.minArity → FailsForNodes lax (required vs[i]?) :=
    fun i hi => required_failsForNodes (isSome_of_accepts hfits hi)
  have hargument : f.TakesNodes → ∀ (i : Nat) (v : Value), vs[i]? = some v →
      FailsForNodes lax v.toNodes :=
    fun hf i v hv => .toNodes fun hlax => hnodes hlax hf v (List.mem_of_getElem? hv)
  cases f with
  | count | sum =>
    refine (hrequired 0 Nat.one_pos).bind fun v hv => ?_
    refine FailsForNodes.bind ?_ fun _ _ => .ok _
    refine hargument trivial 0 v ?_
    cases h0 : vs[0]? with
    | none =>
      rw [h0] at hv
      cases hv
    | some w =>
      rw [h0] at hv
      cases hv
      rfl
  | localName | namespaceUri | name =>
    refine FailsForNodes.bind ?_ fun _ _ => .ok _
    cases h0 : vs[0]? with
    | none => exact .ok _
    | some v => exact (hargument trivial 0 v h0).map _
  | substring => exact (hrequired 1 (by decide)).bind fun _ _ => .ok _
  | boolean | not | floor | ceiling | round =>
    exact (hrequired 0 Nat.one_pos).bind fun _ _ => .ok _
  | last | position | string | concat | startsWith | endsWith | contains | substringBefore
  | substringAfter | stringLength | normalizeSpace | translate | true | false | lang | number =>
    exact .ok _

/-- Nodes are kept or dropped without a failure of its own. -/
lemma keepFrom_failsForNodes {test : Focus → Except Error Value}
    (htest : ∀ focus, FailsForNodes lax (test focus)) (size : Nat) (is : List NodeId) :
    ∀ position, FailsForNodes lax (keepFrom test size position is) := by
  induction is with
  | nil => exact fun _ => .ok _
  | cons i is ih =>
    exact fun position => (htest _).bind fun _ _ => (ih _).bind fun _ _ => .ok _

/-- Many computations, one after the other, fail for the reasons of each. -/
lemma mapM_failsForNodes {α β : Type} {f : α → Except Error β}
    (hf : ∀ a, FailsForNodes lax (f a)) (as : List α) : FailsForNodes lax (as.mapM f) := by
  induction as with
  | nil =>
    rw [List.mapM_nil]
    exact .ok _
  | cons a as ih =>
    rw [List.mapM_cons]
    exact (hf a).bind fun _ _ => ih.bind fun _ _ => .ok _

/-- A node-set expression has a value that can be read as a node-set. -/
lemma toNodes_of_evaluate {e : Expr resolved} {focus : Focus} {v : Value}
    (hv : e.evaluate d focus = .ok v) (he : ¬lax → e.isNodeSet) :
    FailsForNodes lax v.toNodes :=
  .toNodes fun hlax => (evaluate_kind hv).trans (kind_of_isNodeSet (he hlax))

/-- A binary operation fails for the reasons of its operands. -/
lemma evaluate_binary_failsForNodes (op : BinaryOp) {l r : Expr resolved} {focus : Focus}
    (hl : FailsForNodes lax (l.evaluate d focus)) (hr : FailsForNodes lax (r.evaluate d focus)) :
    FailsForNodes lax ((Expr.binary op l r).evaluate d focus) := by
  cases op with
  | or =>
    rw [Expr.evaluate]
    refine hl.bind fun _ _ => ?_
    split
    · exact .ok _
    · exact hr.bind fun _ _ => .ok _
  | and =>
    rw [Expr.evaluate]
    refine hl.bind fun _ _ => ?_
    split
    · exact hr.bind fun _ _ => .ok _
    · exact .ok _
  | eq | ne | lt | le | gt | ge | add | sub | mul | div | mod =>
    rw [Expr.evaluate]
    · exact hl.bind fun _ _ => hr.bind fun _ _ => .ok _
    all_goals simp

mutual

/-- **Evaluation fails only for lack of nodes**, and not at all where nodes are asked of unions,
filters and paths alone.

**Proof sketch.** Induction on the expression, together with its arguments, predicates and steps. No
call lacks an argument, since their numbers fit, and a union, filter or path has a node-set for its
value (`evaluate_kind`). -/
theorem evaluate_failsForNodes (focus : Focus) :
    ∀ e : Expr resolved, e.Everywhere Expr.CallFits →
      (¬lax → e.Everywhere Expr.AsksNodesOfNodes) → FailsForNodes lax (e.evaluate d focus)
  | .literal _, _, _ => by
    rw [Expr.evaluate]
    exact .ok _
  | .number _, _, _ => by
    rw [Expr.evaluate]
    exact .ok _
  | .reference name, _, _ => nomatch name
  | .call f es, hc, hn => by
    simp only [Expr.Everywhere] at hc hn
    rw [Expr.evaluate]
    refine (evaluateAll_failsForNodes focus es hc.2 fun h => (hn h).2).bind fun vs hvs => ?_
    have hkinds := evaluateAll_kinds hvs
    have hlength : vs.length = es.length := by simpa using congrArg List.length hkinds
    refine call_failsForNodes (hlength ▸ hc.1) fun hlax hf v hv => ?_
    obtain ⟨e, he, hkind⟩ := List.mem_map.1 (hkinds ▸ List.mem_map_of_mem hv)
    rw [← hkind]
    exact kind_of_isNodeSet ((hn hlax).1 hf e he)
  | .binary op l r, hc, hn => by
    simp only [Expr.Everywhere] at hc hn
    exact evaluate_binary_failsForNodes op
      (evaluate_failsForNodes focus l hc.2.1 fun h => (hn h).2.1)
      (evaluate_failsForNodes focus r hc.2.2 fun h => (hn h).2.2)
  | .negate e, hc, hn => by
    simp only [Expr.Everywhere] at hc hn
    rw [Expr.evaluate]
    exact (evaluate_failsForNodes focus e hc.2 fun h => (hn h).2).bind fun _ _ => .ok _
  | .union l r, hc, hn => by
    simp only [Expr.Everywhere] at hc hn
    rw [Expr.evaluate]
    refine (evaluate_failsForNodes focus l hc.2.1 fun h => (hn h).2.1).bind fun _ hl => ?_
    refine (toNodes_of_evaluate hl fun h => (hn h).1.1).bind fun _ _ => ?_
    refine (evaluate_failsForNodes focus r hc.2.2 fun h => (hn h).2.2).bind fun _ hr => ?_
    exact (toNodes_of_evaluate hr fun h => (hn h).1.2).bind fun _ _ => .ok _
  | .filter e ps, hc, hn => by
    simp only [Expr.Everywhere] at hc hn
    rw [Expr.evaluate]
    refine (evaluate_failsForNodes focus e hc.2.1 fun h => (hn h).2.1).bind fun _ he => ?_
    refine (toNodes_of_evaluate he fun h => (hn h).1).bind fun is _ => ?_
    exact (keepAll_failsForNodes ps hc.2.2 (fun h => (hn h).2.2) is).bind fun _ _ => .ok _
  | .path start ss, hc, hn => by
    simp only [Expr.Everywhere] at hc hn
    rw [Expr.evaluate]
    refine FailsForNodes.bind ?_ fun is _ =>
      (follow_failsForNodes ss hc.2.2 (fun h => (hn h).2.2) is).bind fun _ _ => .ok _
    match start with
    | .root | .context =>
      rw [Start.evaluate]
      exact .ok _
    | .expr e =>
      simp only [Start.Everywhere] at hc hn
      rw [Start.evaluate]
      refine (evaluate_failsForNodes focus e hc.2.1 fun h => (hn h).2.1).bind fun _ he => ?_
      exact toNodes_of_evaluate he fun h => (hn h).1

/-- Arguments fail only for lack of nodes. -/
theorem evaluateAll_failsForNodes (focus : Focus) :
    ∀ es : List (Expr resolved), EverywhereIn Expr.CallFits es →
      (¬lax → EverywhereIn Expr.AsksNodesOfNodes es) → FailsForNodes lax (evaluateAll d focus es)
  | [], _, _ => by
    rw [evaluateAll]
    exact .ok _
  | e :: es, hc, hn => by
    simp only [EverywhereIn] at hc hn
    rw [evaluateAll]
    refine (evaluate_failsForNodes focus e hc.1 fun h => (hn h).1).bind fun _ _ => ?_
    exact (evaluateAll_failsForNodes focus es hc.2 fun h => (hn h).2).bind fun _ _ => .ok _

/-- Predicates fail only for lack of nodes. -/
theorem keepAll_failsForNodes :
    ∀ ps : List (Expr resolved), EverywhereIn Expr.CallFits ps →
      (¬lax → EverywhereIn Expr.AsksNodesOfNodes ps) →
        ∀ is, FailsForNodes lax (keepAll d ps is)
  | [], _, _, is => by
    rw [keepAll]
    exact .ok is
  | p :: ps, hc, hn, is => by
    simp only [EverywhereIn] at hc hn
    rw [keepAll]
    refine FailsForNodes.bind ?_ fun kept _ =>
      keepAll_failsForNodes ps hc.2 (fun h => (hn h).2) kept
    exact keepFrom_failsForNodes
      (fun focus => evaluate_failsForNodes focus p hc.1 fun h => (hn h).1) _ _ _

/-- Steps fail only for lack of nodes. -/
theorem follow_failsForNodes :
    ∀ ss : List (Step resolved), EverywhereAlong Expr.CallFits ss →
      (¬lax → EverywhereAlong Expr.AsksNodesOfNodes ss) →
        ∀ is, FailsForNodes lax (follow d ss is)
  | [], _, _, is => by
    rw [follow]
    exact .ok is
  | .mk axis test ps :: ss, hc, hn, is => by
    simp only [EverywhereAlong, Step.Everywhere] at hc hn
    rw [follow]
    refine (mapM_failsForNodes (fun i => ?_) is).bind fun _ _ =>
      follow_failsForNodes ss hc.2 (fun h => (hn h).2) _
    rw [Step.select]
    exact keepAll_failsForNodes ps hc.1 (fun h => (hn h).1) _

end

/-! ## Compiled expressions -/

/-- Resolution keeps the number of expressions. -/
lemma length_resolveAll {c : StaticContext} {es : List (Expr written)}
    {es' : List (Expr resolved)} (h : resolveAll c es = .ok es') : es'.length = es.length := by
  induction es generalizing es' with
  | nil =>
    rw [resolveAll] at h
    cases h
    rfl
  | cons e es ih =>
    rw [resolveAll] at h
    obtain ⟨_, -, h⟩ := bind_eq_ok_iff.1 h
    obtain ⟨_, hes, h⟩ := bind_eq_ok_iff.1 h
    cases h
    rw [List.length_cons, List.length_cons, ih hes]

/-- A function that is found takes the number of arguments it was looked up for. -/
lemma accepts_of_findFunction {name : WrittenName} {arity : Nat} {f : Function}
    (h : findFunction name arity = .ok f) : f.accepts arity := by
  unfold findFunction at h
  split at h
  · split at h
    · rename_i hf
      cases h
      exact hf
    · cases h
  · cases h

mutual

/-- **Compilation checks every call**: in a resolved expression all calls have numbers of arguments
that their functions take. -/
theorem resolve_callFits (c : StaticContext) : ∀ (e : Expr written) {e' : Expr resolved},
    e.resolve c = .ok e' → e'.Everywhere Expr.CallFits
  | .literal _, _, h | .number _, _, h => by
    rw [Expr.resolve] at h
    cases h
    trivial
  | .reference _, _, h => by
    rw [Expr.resolve] at h
    cases h
  | .call _ es, _, h => by
    rw [Expr.resolve] at h
    obtain ⟨f, hf, h⟩ := bind_eq_ok_iff.1 h
    obtain ⟨es', hes, h⟩ := bind_eq_ok_iff.1 h
    cases h
    refine ⟨?_, resolveAll_callFits c es hes⟩
    rw [Expr.CallFits, length_resolveAll hes]
    exact accepts_of_findFunction hf
  | .binary _ l r, _, h => by
    rw [Expr.resolve] at h
    obtain ⟨_, hl, h⟩ := bind_eq_ok_iff.1 h
    obtain ⟨_, hr, h⟩ := bind_eq_ok_iff.1 h
    cases h
    exact ⟨trivial, resolve_callFits c l hl, resolve_callFits c r hr⟩
  | .negate e, _, h => by
    rw [Expr.resolve] at h
    obtain ⟨_, he, h⟩ := bind_eq_ok_iff.1 h
    cases h
    exact ⟨trivial, resolve_callFits c e he⟩
  | .union l r, _, h => by
    rw [Expr.resolve] at h
    obtain ⟨_, hl, h⟩ := bind_eq_ok_iff.1 h
    obtain ⟨_, hr, h⟩ := bind_eq_ok_iff.1 h
    cases h
    exact ⟨trivial, resolve_callFits c l hl, resolve_callFits c r hr⟩
  | .filter e ps, _, h => by
    rw [Expr.resolve] at h
    obtain ⟨_, he, h⟩ := bind_eq_ok_iff.1 h
    obtain ⟨_, hps, h⟩ := bind_eq_ok_iff.1 h
    cases h
    exact ⟨trivial, resolve_callFits c e he, resolveAll_callFits c ps hps⟩
  | .path start ss, _, h => by
    rw [Expr.resolve] at h
    obtain ⟨start', hstart, h⟩ := bind_eq_ok_iff.1 h
    obtain ⟨_, hss, h⟩ := bind_eq_ok_iff.1 h
    cases h
    refine ⟨?_, ?_, resolveSteps_callFits c ss hss⟩
    · cases start' <;> trivial
    · match start with
      | .root | .context =>
        rw [Start.resolve] at hstart
        cases hstart
        trivial
      | .expr e =>
        rw [Start.resolve] at hstart
        obtain ⟨_, he, hstart⟩ := bind_eq_ok_iff.1 hstart
        cases hstart
        exact resolve_callFits c e he

/-- In resolved expressions all calls fit. -/
theorem resolveAll_callFits (c : StaticContext) : ∀ (es : List (Expr written))
    {es' : List (Expr resolved)}, resolveAll c es = .ok es' → EverywhereIn Expr.CallFits es'
  | [], _, h => by
    rw [resolveAll] at h
    cases h
    trivial
  | e :: es, _, h => by
    rw [resolveAll] at h
    obtain ⟨_, he, h⟩ := bind_eq_ok_iff.1 h
    obtain ⟨_, hes, h⟩ := bind_eq_ok_iff.1 h
    cases h
    exact ⟨resolve_callFits c e he, resolveAll_callFits c es hes⟩

/-- In the predicates of resolved steps all calls fit. -/
theorem resolveSteps_callFits (c : StaticContext) : ∀ (ss : List (Step written))
    {ss' : List (Step resolved)}, resolveSteps c ss = .ok ss' → EverywhereAlong Expr.CallFits ss'
  | [], _, h => by
    rw [resolveSteps] at h
    cases h
    trivial
  | .mk axis test ps :: ss, _, h => by
    rw [resolveSteps] at h
    obtain ⟨_, hs, h⟩ := bind_eq_ok_iff.1 h
    obtain ⟨_, hss, h⟩ := bind_eq_ok_iff.1 h
    cases h
    refine ⟨?_, resolveSteps_callFits c ss hss⟩
    rw [Step.resolve] at hs
    split at hs
    · cases hs
    · obtain ⟨_, hps, hs⟩ := bind_eq_ok_iff.1 hs
      obtain ⟨_, -, hs⟩ := bind_eq_ok_iff.1 hs
      cases hs
      exact resolveAll_callFits c ps hps

end

/-- A text is compiled if it is read and its names are resolved. -/
lemma compile_eq_ok_iff {c : StaticContext} {source : String} {q : Compiled} :
    compile c source = .ok q ↔
      ∃ e e', parse? source = some e ∧ e.resolve c = .ok e' ∧ q = ⟨e', c, source⟩ := by
  unfold compile
  cases parse? source with
  | none => simp
  | some e =>
    simp only [Option.some.injEq]
    rw [bind_eq_ok_iff]
    constructor
    · rintro ⟨e', he', hq⟩
      exact ⟨e, e', rfl, he', (pure_eq_ok_iff.1 hq).symm⟩
    · rintro ⟨_, e', rfl, he', rfl⟩
      exact ⟨e', he', rfl⟩

/-- In a compiled expression all calls have numbers of arguments that their functions take. -/
lemma compile_callFits {c : StaticContext} {source : String} {q : Compiled}
    (h : compile c source = .ok q) : q.root.Everywhere Expr.CallFits := by
  obtain ⟨_, _, -, he, rfl⟩ := compile_eq_ok_iff.1 h
  exact resolve_callFits c _ he

/-- **Evaluation of compiled expressions is sound.** In every document and every focus, a compiled
expression has a value, or it fails while it is evaluated because nodes were needed and something
else was found. A value is of the kind that the top of the expression tells. The expression does not
fail if everywhere in it nodes are asked of unions, filters and paths.

**Proof sketch.** Compilation looks functions up with their numbers of arguments, so all calls fit
(`compile_callFits`). By induction on the expression, evaluation can then fail only where nodes are
needed and something else is found (`evaluate_failsForNodes`), and every value is of the kind that
the top tells (`evaluate_kind`). Unions, filters and paths have node-sets for values, so that
nothing else is found where nodes are asked of these only. -/
theorem compiled_sound {c : StaticContext} {source : String} {q : Compiled}
    (h : compile c source = .ok q) (d : Document) (focus : Focus) :
    (∀ err, q.root.evaluate d focus = .error err →
        err.code = "err:XPTY0019" ∧ err.isStatic = false) ∧
      (∀ v, q.root.evaluate d focus = .ok v → v.kind = q.root.kind) ∧
      (q.root.Everywhere Expr.AsksNodesOfNodes → ∃ v, q.root.evaluate d focus = .ok v) := by
  have hfits : q.root.Everywhere Expr.CallFits := compile_callFits h
  refine ⟨fun err herr => ?_, fun v hv => evaluate_kind hv, fun hnodes => ?_⟩
  · obtain ⟨-, found, rfl⟩ :=
      evaluate_failsForNodes focus q.root hfits (fun h : ¬True => absurd trivial h) err herr
    exact ⟨rfl, rfl⟩
  · exact (evaluate_failsForNodes focus q.root hfits fun _ : ¬False => hnodes).exists_ok

/-- Counting the members of a union cannot fail, and a union with a text fails for lack of nodes. -/
theorem compiled_sound_unions : ∃ q r : Compiled,
    compile .initial "count(.|/*)" = .ok q ∧ compile .initial "/*|''" = .ok r ∧
      ∀ (d : Document) (focus : Focus),
        (∃ v, q.root.evaluate d focus = .ok v ∧ v.kind = .number) ∧
          ∃ err, r.root.evaluate d focus = .error err ∧ err.code = "err:XPTY0019" := by
  have hqtokens : tokens? "count(.|/*)".toList = some [.name ⟨none, "count"⟩, .symbol .openParen,
      .symbol .dot, .symbol .bar, .symbol .slash, .symbol .star, .symbol .closeParen] := by
    decide +kernel
  have hrtokens : tokens? "/*|''".toList = some [.symbol .slash, .symbol .star, .symbol .bar,
      .literal ""] := by
    decide +kernel
  have hq : compile .initial "count(.|/*)" = .ok ⟨.call .count [.union
      (.path .context [.mk .itself .node []]) (.path .root [.mk .child .any []])], .initial,
      "count(.|/*)"⟩ := by
    rw [compile, parse?, hqtokens]
    rfl
  have hr : compile .initial "/*|''" = .ok ⟨.union (.path .root [.mk .child .any []])
      (.literal ""), .initial, "/*|''"⟩ := by
    rw [compile, parse?, hrtokens]
    rfl
  refine ⟨_, _, hq, hr, fun d focus => ⟨?_, ?_⟩⟩
  · obtain ⟨-, hkind, hok⟩ := compiled_sound hq d focus
    obtain ⟨v, hv⟩ := hok (by simp [Expr.Everywhere, EverywhereIn, EverywhereAlong,
      Start.Everywhere, Step.Everywhere, Expr.AsksNodesOfNodes, Expr.isNodeSet])
    exact ⟨v, hv, hkind v hv⟩
  · obtain ⟨hfail, hkind, -⟩ := compiled_sound hr d focus
    cases hev : (Expr.union (.path .root [.mk .child .any []]) (.literal "")).evaluate d focus with
    | error err => exact ⟨err, rfl, (hfail err hev).1⟩
    | ok v =>
      rw [Expr.evaluate] at hev
      obtain ⟨_, -, hev⟩ := bind_eq_ok_iff.1 hev
      obtain ⟨_, -, hev⟩ := bind_eq_ok_iff.1 hev
      obtain ⟨_, ht, hev⟩ := bind_eq_ok_iff.1 hev
      obtain ⟨_, hnodes, -⟩ := bind_eq_ok_iff.1 hev
      rw [Expr.evaluate] at ht
      cases ht
      cases hnodes

end XmlHarvest.Query
