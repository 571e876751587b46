import XmlHarvest.Proofs.Query.Focus

/-!
# Conditions

Predicates are evaluated one after the other, each on the nodes that the ones before have kept and
with positions counted anew. A condition is a predicate that does not notice: its value is no
number, and it asks for positions inside predicates of its own only. Conditions say the same of a
node wherever it stands among others, so that a list of them amounts to one question to each node by
itself.

## Main definitions

* `Query.Expr.IsCondition`: predicates that are not positional.
* `Query.Expr.holdsAt`, `Query.meets`: whether a predicate holds at a node, and whether the node
  meets conditions.

## Main results

* `Query.Expr.IsCondition.of_kind`: the kind of an expression tells that it is no number.
* `Query.keepAll_eq_ok_iff`: conditions keep the nodes that meet them.
* `Query.conditions_fuse_and_commute`: two conditions are one conjunction, and their order does not
  matter.
-/

namespace XmlHarvest.Query

/-! ## What a node meets -/

/-- A predicate that is not positional: its value is never a number, and `position()` and `last()`
are called in predicates of its own only. -/
structure Expr.IsCondition (d : Document) (p : Expr resolved) : Prop where
  not_number : ∀ focus x, p.evaluate d focus ≠ .ok (.number x)
  not_position : ∀ part, p.Shares part → ¬part.ReadsPosition

/-- Whether a predicate holds at a node that is alone in its focus. -/
def Expr.holdsAt (d : Document) (i : NodeId) (p : Expr resolved) : Except Error Bool := do
  return (← p.evaluate d ⟨i, 1, 1⟩).toBoolean

/-- Whether a node meets conditions, which are asked of it in order until one does not hold. -/
def meets (d : Document) (i : NodeId) : List (Expr resolved) → Except Error Bool
  | [] => .ok true
  | p :: ps => do if (← p.holdsAt d i) then meets d i ps else return false

/-- The answer to a question is yes. A fault is no answer. -/
def isYes (answer : Except Error Bool) : Bool :=
  answer.toOption.getD false

variable {d : Document} {p q : Expr resolved} {ps : List (Expr resolved)} {i : NodeId}

/-- The kind of an expression tells that its value is no number. -/
lemma Expr.IsCondition.of_kind (hkind : p.kind ≠ .number)
    (hposition : ∀ part, p.Shares part → ¬part.ReadsPosition) : p.IsCondition d :=
  ⟨fun _ _ h => hkind (evaluate_kind h).symm, hposition⟩

/-- A condition has the same value wherever the node stands. -/
lemma Expr.IsCondition.evaluate_eq (hp : p.IsCondition d) (i : NodeId) (position size : Nat) :
    p.evaluate d ⟨i, position, size⟩ = p.evaluate d ⟨i, 1, 1⟩ :=
  evaluate_congr p fun part hpart => ⟨.inl rfl, .inr (hp.not_position part hpart)⟩

/-- The value of a condition is not compared with the position. -/
lemma Expr.IsCondition.keeps_eq (hp : p.IsCondition d) {focus : Focus} {v : Value}
    (hv : p.evaluate d focus = .ok v) (position : Nat) : keeps position v = v.toBoolean := by
  cases v with
  | number x => exact absurd hv (hp.not_number focus x)
  | nodes | text | boolean => rfl

/-- Two conditions with `and` between them are one condition. -/
lemma Expr.IsCondition.and (hp : p.IsCondition d) (hq : q.IsCondition d) :
    (Expr.binary .and p q).IsCondition d := by
  refine .of_kind (by simp [Expr.kind, BinaryOp.kind]) (Expr.forall_shares_iff.2 ⟨not_false, ?_⟩)
  simp only [Expr.ownParts, List.forall_mem_cons]
  exact ⟨hp.not_position, hq.not_position, by simp⟩

/-- A predicate holds at a node if its value there is true. -/
lemma holdsAt_eq_ok_iff {b : Bool} :
    p.holdsAt d i = .ok b ↔ ∃ v, p.evaluate d ⟨i, 1, 1⟩ = .ok v ∧ v.toBoolean = b := by
  simp only [Expr.holdsAt, bind_eq_ok_iff, pure_eq_ok_iff]

/-- Conditions do not fail at a node if the first one does not, and the others do not where it
holds. -/
lemma exists_meets_cons_iff : (∃ b, meets d i (p :: ps) = .ok b) ↔
    (∃ b, p.holdsAt d i = .ok b) ∧ (isYes (p.holdsAt d i) = true → ∃ b, meets d i ps = .ok b) := by
  rw [meets]
  cases p.holdsAt d i with
  | error err => simp [bind, Except.bind]
  | ok b => cases b <;> simp [bind, Except.bind, pure, Except.pure, isYes, Except.toOption]

/-- A node meets conditions if the first one holds and it meets the others. -/
lemma isYes_meets_cons :
    isYes (meets d i (p :: ps)) = (isYes (p.holdsAt d i) && isYes (meets d i ps)) := by
  rw [meets]
  cases p.holdsAt d i with
  | error err => rfl
  | ok b => cases b <;> rfl

/-! ## What conditions keep -/

/-- A condition keeps the nodes at which it holds, from whatever position on. -/
lemma keepFrom_eq_ok_iff (hp : p.IsCondition d) {size position : Nat} {is js : List NodeId} :
    keepFrom (fun focus => p.evaluate d focus) size position is = .ok js ↔
      (∀ i ∈ is, ∃ b, p.holdsAt d i = .ok b) ∧ js = is.filter fun i => isYes (p.holdsAt d i) := by
  induction is generalizing position js with
  | nil => simp [keepFrom, eq_comm]
  | cons i is ih =>
    rw [keepFrom, hp.evaluate_eq, List.forall_mem_cons, List.filter_cons, bind_eq_ok_iff]
    constructor
    · rintro ⟨v, hv, h⟩
      obtain ⟨rest, hrest, h⟩ := bind_eq_ok_iff.1 h
      have hholds : p.holdsAt d i = .ok v.toBoolean := holdsAt_eq_ok_iff.2 ⟨v, hv, rfl⟩
      obtain ⟨hall, rfl⟩ := ih.1 hrest
      refine ⟨⟨⟨_, hholds⟩, hall⟩, ?_⟩
      rw [← pure_eq_ok_iff.1 h, hp.keeps_eq hv, hholds]
      rfl
    · rintro ⟨⟨⟨b, hholds⟩, hall⟩, rfl⟩
      obtain ⟨v, hv, rfl⟩ := holdsAt_eq_ok_iff.1 hholds
      refine ⟨v, hv, bind_eq_ok_iff.2 ⟨_, ih.2 ⟨hall, rfl⟩, pure_eq_ok_iff.2 ?_⟩⟩
      rw [hp.keeps_eq hv, hholds]
      rfl

/-- **Conditions keep the nodes that meet them.** They fail if they fail at some node.

**Proof sketch.** Induction on the conditions. The nodes that the first one keeps are those at which
the others are asked, and the ones that these keep are those that meet all (`isYes_meets_cons`). -/
lemma keepAll_eq_ok_iff (hps : ∀ p ∈ ps, p.IsCondition d) {is js : List NodeId} :
    keepAll d ps is = .ok js ↔
      (∀ i ∈ is, ∃ b, meets d i ps = .ok b) ∧ js = is.filter fun i => isYes (meets d i ps) := by
  induction ps generalizing is with
  | nil =>
    have hall : (is.filter fun i => isYes (meets d i [])) = is :=
      List.filter_eq_self.2 fun _ _ => rfl
    rw [keepAll, hall, Except.ok.injEq, eq_comm (a := is)]
    exact (and_iff_right fun _ _ => ⟨true, rfl⟩).symm
  | cons p ps ih =>
    obtain ⟨hp, hps⟩ := List.forall_mem_cons.1 hps
    have hfilter : (is.filter fun i => isYes (meets d i (p :: ps))) =
        (is.filter fun i => isYes (p.holdsAt d i)).filter fun i => isYes (meets d i ps) := by
      rw [List.filter_filter]
      exact List.filter_congr fun i _ => by rw [isYes_meets_cons, Bool.and_comm]
    rw [keepAll, bind_eq_ok_iff, hfilter]
    simp only [keepWhere, keepFrom_eq_ok_iff hp, ih hps, exists_meets_cons_iff]
    constructor
    · rintro ⟨_, ⟨hfirst, rfl⟩, hrest, rfl⟩
      exact ⟨fun i hi => ⟨hfirst i hi, fun h => hrest i (List.mem_filter.2 ⟨hi, h⟩)⟩, rfl⟩
    · rintro ⟨h, rfl⟩
      refine ⟨_, ⟨fun i hi => (h i hi).1, rfl⟩, fun i hi => ?_, rfl⟩
      obtain ⟨hi, hyes⟩ := List.mem_filter.1 hi
      exact (h i hi).2 hyes

/-! ## Two conditions -/

/-- A node meets one condition if that holds at it. -/
lemma meets_singleton : meets d i [p] = p.holdsAt d i := by
  rw [meets]
  cases p.holdsAt d i with
  | error err => rfl
  | ok b => cases b <;> rfl

/-- A conjunction leaves out its second member where two conditions leave out the second one. -/
lemma meets_and : meets d i [.binary .and p q] = meets d i [p, q] := by
  rw [meets_singleton, meets, meets_singleton, Expr.holdsAt, Expr.evaluate, Expr.holdsAt,
    bind_assoc, bind_assoc]
  refine bind_congr_of_ok fun v _ => ?_
  rw [pure_bind]
  cases v.toBoolean with
  | false => rfl
  | true => exact bind_assoc _ _ _

/-- Where two conditions do not fail, their order does not matter. -/
lemma meets_comm {b c : Bool} (hp : p.holdsAt d i = .ok b) (hq : q.holdsAt d i = .ok c) :
    meets d i [p, q] = .ok (b && c) ∧ meets d i [q, p] = .ok (b && c) := by
  simp only [meets, hp, hq]
  cases b <;> cases c <;> exact ⟨rfl, rfl⟩

/-- **Conditions fuse and commute.** On every list of nodes, two conditions one after the other keep
the nodes that their conjunction keeps, and fail if it fails. Which fault is reported may differ,
since the conjunction asks the second condition of a node before it asks the first one of the next
node. If neither condition fails at any of the nodes, both orders keep the same nodes in the same
order.

**Proof sketch.** Conditions keep the nodes that meet them and fail if they fail at some node
(`keepAll_eq_ok_iff`), so only single nodes have to be considered. At a node, the conjunction leaves
out its second member just where the second condition is left out (`meets_and`), and if neither
fails, their order does not matter (`meets_comm`). -/
theorem conditions_fuse_and_commute (hp : p.IsCondition d) (hq : q.IsCondition d)
    (is : List NodeId) :
    (keepAll d [p, q] is).toOption = (keepAll d [.binary .and p q] is).toOption ∧
      ((∀ i ∈ is, (∃ v, p.evaluate d ⟨i, 1, 1⟩ = .ok v) ∧ ∃ w, q.evaluate d ⟨i, 1, 1⟩ = .ok w) →
        ∃ js, keepAll d [p, q] is = .ok js ∧ keepAll d [q, p] is = .ok js) := by
  have hpq : ∀ e ∈ [p, q], e.IsCondition d := by simp [hp, hq]
  have hqp : ∀ e ∈ [q, p], e.IsCondition d := by simp [hp, hq]
  have hand : ∀ e ∈ [Expr.binary .and p q], e.IsCondition d := by simp [hp.and hq]
  refine ⟨toOption_eq_of_ok_iff fun js => ?_, fun hok => ?_⟩
  · simp only [keepAll_eq_ok_iff hpq, keepAll_eq_ok_iff hand, meets_and]
  · have hmeets : ∀ i ∈ is, ∃ b, meets d i [p, q] = .ok b ∧ meets d i [q, p] = .ok b := by
      intro i hi
      obtain ⟨⟨v, hv⟩, w, hw⟩ := hok i hi
      exact ⟨_, meets_comm (holdsAt_eq_ok_iff.2 ⟨v, hv, rfl⟩) (holdsAt_eq_ok_iff.2 ⟨w, hw, rfl⟩)⟩
    refine ⟨_, (keepAll_eq_ok_iff hpq).2 ⟨fun i hi => ?_, rfl⟩,
      (keepAll_eq_ok_iff hqp).2 ⟨fun i hi => ?_, List.filter_congr fun i hi => ?_⟩⟩ <;>
      obtain ⟨b, hb, hb'⟩ := hmeets i hi
    · exact ⟨b, hb⟩
    · exact ⟨b, hb'⟩
    · rw [hb, hb']

/-- Two conditions on three elements, the first of which has `last()` in a predicate of its own. -/
theorem conditions_fuse_and_commute_siblings : ∃ (d : Document) (p q : Expr resolved),
    Document.parse "<r><a/><b/><a/></r>" = .ok d ∧
      p = .path .context [.mk .followingSibling .any [.call Function.last []]] ∧
      q = .path .context [.mk .itself (.named (ExpandedName.mk none "a")) []] ∧
      p.IsCondition d ∧ q.IsCondition d ∧ keepAll d [p, q] [2, 3, 4] = .ok [2] ∧
      keepAll d [.binary .and p q] [2, 3, 4] = .ok [2] ∧ keepAll d [q, p] [2, 3, 4] = .ok [2] := by
  let p : Expr resolved := .path .context [.mk .followingSibling .any [.call Function.last []]]
  let q : Expr resolved := .path .context [.mk .itself (.named (ExpandedName.mk none "a")) []]
  have h : ((Document.parse "<r><a/><b/><a/></r>").toOption.bind fun d =>
      (keepAll d [p, q] [2, 3, 4]).toOption) = some [2] := by decide +kernel
  obtain ⟨d, hd, h⟩ := Option.bind_eq_some_iff.1 h
  have hkeep : keepAll d [p, q] [2, 3, 4] = .ok [2] := toOption_eq_some_iff.1 h
  have hp : p.IsCondition d := .of_kind (by simp [p, Expr.kind])
    (Expr.forall_shares_iff.2 ⟨not_false, by simp [p, Expr.ownParts, Start.parts]⟩)
  have hq : q.IsCondition d := .of_kind (by simp [q, Expr.kind])
    (Expr.forall_shares_iff.2 ⟨not_false, by simp [q, Expr.ownParts, Start.parts]⟩)
  have hsound : ∀ e ∈ [p, q], e.Everywhere Expr.CallFits ∧ e.Everywhere Expr.AsksNodesOfNodes := by
    simp [p, q, Expr.Everywhere, Start.Everywhere, EverywhereAlong, Step.Everywhere, EverywhereIn,
      Expr.CallFits, Function.accepts, Function.minArity, Function.maxArity?, Expr.AsksNodesOfNodes,
      Function.TakesNodes]
  have hok : ∀ e ∈ [p, q], ∀ focus, ∃ v, e.evaluate d focus = .ok v := fun e he focus =>
    (evaluate_failsForNodes focus e (hsound e he).1 fun _ : ¬False => (hsound e he).2).exists_ok
  obtain ⟨hfuse, hcomm⟩ := conditions_fuse_and_commute hp hq [2, 3, 4]
  obtain ⟨js, hpq, hqp⟩ := hcomm fun i _ => ⟨hok p (by simp) _, hok q (by simp) _⟩
  cases hkeep.symm.trans hpq
  refine ⟨d, p, q, toOption_eq_some_iff.1 hd, rfl, rfl, hp, hq, hkeep, ?_, hqp⟩
  rw [hkeep] at hfuse
  exact toOption_eq_some_iff.1 hfuse.symm

end XmlHarvest.Query
