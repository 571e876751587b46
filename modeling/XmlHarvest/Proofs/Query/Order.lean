import XmlHarvest.Proofs.Document.Axes
import XmlHarvest.Proofs.Except
import XmlHarvest.Query.Evaluation

/-!
# Node-sets in document order

Every node-set that an expression evaluates to is in document order without repetition. Predicates
only drop nodes, so a step keeps the order of its axis, and it is put in order behind a reverse axis
or where several nodes contribute.

## Main results

* `Query.inOrder_sorted`, `Query.inOrder_eq_self`: putting nodes in order.
* `Query.keepAll_sublist`: predicates only drop nodes.
* `Query.select_sorted`: a forward step selects nodes in order from a single node.
* `Query.follow_sorted`: steps lead from nodes in order to nodes in order.
* `Query.evaluate_sorted`: a node-set is in order.
-/

namespace XmlHarvest.Query

/-! ## Putting nodes in order -/

/-- Dropping repetitions with some nodes already kept keeps them in front. -/
lemma eraseRepsBy_loop (i : Nat) (is kept : List Nat) :
    List.eraseRepsBy.loop (· == ·) i is kept =
      kept.reverse ++ List.eraseRepsBy.loop (· == ·) i is [] := by
  induction is generalizing i kept with
  | nil => simp [List.eraseRepsBy.loop]
  | cons j is ih =>
    simp only [List.eraseRepsBy.loop]
    split
    · exact ih i kept
    · rw [ih j (i :: kept), ih j [i]]
      simp

/-- The first of two equal neighbours is dropped, and of two different ones it is kept. -/
lemma eraseReps_cons_cons (i j : Nat) (is : List Nat) : (i :: j :: is).eraseReps =
    if i = j then (i :: is).eraseReps else i :: (j :: is).eraseReps := by
  simp only [List.eraseReps, List.eraseRepsBy, List.eraseRepsBy.loop]
  by_cases hij : i = j
  · simp [hij]
  · simp only [beq_false_of_ne hij, if_neg hij]
    exact eraseRepsBy_loop j is [i]

/-- Dropping repetitions drops no node. -/
lemma mem_eraseReps {k : Nat} : ∀ {is : List Nat}, k ∈ is.eraseReps ↔ k ∈ is
  | [] => Iff.rfl
  | [_] => Iff.rfl
  | i :: j :: is => by
    rw [eraseReps_cons_cons]
    split
    · rename_i hij
      rw [mem_eraseReps, hij]
      simp
    · rw [List.mem_cons, mem_eraseReps, List.mem_cons (a := k) (b := i)]

/-- Nodes that are in order up to repetition are in order without repetitions. -/
lemma eraseReps_sorted : ∀ {is : List Nat}, is.Pairwise (· ≤ ·) → is.eraseReps.Pairwise (· < ·)
  | [], _ => List.Pairwise.nil
  | [_], _ => List.pairwise_singleton _ _
  | i :: j :: is, h => by
    obtain ⟨hi, hrest⟩ := List.pairwise_cons.1 h
    rw [eraseReps_cons_cons]
    split
    · rename_i hij
      exact eraseReps_sorted (hij ▸ hrest)
    · rename_i hij
      refine List.pairwise_cons.2 ⟨fun k hk => ?_, eraseReps_sorted hrest⟩
      have hlt : i < j := Nat.lt_of_le_of_ne (hi j (by simp)) hij
      rcases List.mem_cons.1 (mem_eraseReps.1 hk) with rfl | hk
      · exact hlt
      · exact Nat.lt_of_lt_of_le hlt ((List.pairwise_cons.1 hrest).1 k hk)

/-- Nodes in order have no repetitions to drop. -/
lemma eraseReps_eq_self : ∀ {is : List Nat}, is.Pairwise (· < ·) → is.eraseReps = is
  | [], _ => rfl
  | [_], _ => rfl
  | i :: j :: is, h => by
    obtain ⟨hi, hrest⟩ := List.pairwise_cons.1 h
    rw [eraseReps_cons_cons, if_neg (Nat.ne_of_lt (hi j (by simp))), eraseReps_eq_self hrest]

/-- Sorted nodes are in order up to repetition. -/
lemma mergeSort_sorted (is : List Nat) : (is.mergeSort fun i j => i ≤ j).Pairwise (· ≤ ·) := by
  have h := @List.pairwise_mergeSort Nat (fun i j => decide (i ≤ j))
    (fun i j k hij hjk => by simp only [decide_eq_true_iff] at *; omega)
    (fun i j => by simp only [Bool.or_eq_true, decide_eq_true_iff]; omega) is
  exact h.imp of_decide_eq_true

/-- Nodes that are put in order are in order. -/
lemma inOrder_sorted (is : List NodeId) : (inOrder is).Pairwise (· < ·) :=
  eraseReps_sorted (mergeSort_sorted is)

/-- Putting nodes in order neither adds nor drops one. -/
lemma mem_inOrder {i : NodeId} {is : List NodeId} : i ∈ inOrder is ↔ i ∈ is :=
  mem_eraseReps.trans List.mem_mergeSort

/-- Nodes in order need not be put in order. -/
lemma inOrder_eq_self {is : List NodeId} (h : is.Pairwise (· < ·)) : inOrder is = is := by
  have hsort : (is.mergeSort fun i j => i ≤ j) = is :=
    List.mergeSort_of_pairwise (h.imp fun hij => decide_eq_true (Nat.le_of_lt hij))
  rw [inOrder, hsort, eraseReps_eq_self h]

/-! ## Predicates -/

/-- A predicate only drops nodes. -/
lemma keepFrom_sublist {test : Focus → Except Error Value} {size position : Nat}
    {is js : List NodeId} (h : keepFrom test size position is = .ok js) : js.Sublist is := by
  induction is generalizing position js with
  | nil =>
    cases h
    exact .slnil
  | cons i is ih =>
    obtain ⟨v, -, h⟩ := bind_eq_ok_iff.1 h
    obtain ⟨rest, hrest, h⟩ := bind_eq_ok_iff.1 h
    cases h
    split
    · exact (ih hrest).cons_cons i
    · exact (ih hrest).cons i

variable {d : Document}

/-- Predicates only drop nodes. -/
lemma keepAll_sublist {ps : List (Expr resolved)} {is js : List NodeId}
    (h : keepAll d ps is = .ok js) : js.Sublist is := by
  induction ps generalizing is with
  | nil =>
    rw [keepAll] at h
    cases h
    exact List.Sublist.refl _
  | cons p ps ih =>
    rw [keepAll] at h
    obtain ⟨kept, hkept, h⟩ := bind_eq_ok_iff.1 h
    exact (ih h).trans (keepFrom_sublist hkept)

/-! ## Steps -/

/-- What a forward step selects from a single node is in order. -/
lemma select_sorted {s : Step resolved} (hs : s.axis.isReverse = false) {i : NodeId}
    {js : List NodeId} (h : s.select d i = .ok js) : js.Pairwise (· < ·) := by
  obtain ⟨axis, test, predicates⟩ := s
  rw [Step.select] at h
  exact ((Document.axis_sorted hs i).filter _).sublist (keepAll_sublist h)

/-- **The shortcut is sound**: what a forward step selects from at most one node is in order. -/
lemma flatten_mapM_select_sorted {s : Step resolved} (hs : s.axis.isReverse = false)
    {is : List NodeId} (his : is.length ≤ 1) {selected : List (List NodeId)}
    (h : (is.mapM fun i => s.select d i) = .ok selected) :
    selected.flatten.Pairwise (· < ·) := by
  match is, his with
  | [], _ =>
    rw [List.mapM_nil] at h
    cases h
    exact List.Pairwise.nil
  | [i], _ =>
    rw [List.mapM_cons, List.mapM_nil] at h
    obtain ⟨js, hjs, h⟩ := bind_eq_ok_iff.1 h
    cases h
    simpa using select_sorted hs hjs

/-- Steps lead from nodes in order to nodes in order. -/
lemma follow_sorted {ss : List (Step resolved)} {is js : List NodeId} (his : is.Pairwise (· < ·))
    (h : follow d ss is = .ok js) : js.Pairwise (· < ·) := by
  induction ss generalizing is with
  | nil =>
    rw [follow] at h
    cases h
    exact his
  | cons s ss ih =>
    rw [follow] at h
    obtain ⟨selected, hselected, h⟩ := bind_eq_ok_iff.1 h
    refine ih ?_ h
    split
    · exact inOrder_sorted _
    · rename_i hc
      simp only [gt_iff_lt, Bool.or_eq_true, decide_eq_true_iff, not_or, Bool.not_eq_true,
        Nat.not_lt] at hc
      exact flatten_mapM_select_sorted hc.2 hc.1 hselected

/-! ## Expressions -/

/-- No operator has a node-set for its value. -/
lemma apply_ne_nodes (op : BinaryOp) (l r : Value) (is : List NodeId) :
    op.apply d l r ≠ .nodes is := by
  cases op <;> simp [BinaryOp.apply]

/-- No function has a node-set for its value. -/
lemma call_ne_nodes (f : Function) (vs : List Value) (focus : Focus) (is : List NodeId) :
    call d f vs focus ≠ .ok (.nodes is) := by
  intro h
  cases f with
  | count | sum =>
    obtain ⟨_, -, h⟩ := bind_eq_ok_iff.1 h
    obtain ⟨_, -, h⟩ := bind_eq_ok_iff.1 h
    cases h
  | localName | namespaceUri | name | substring | boolean | not | floor | ceiling | round =>
    obtain ⟨_, -, h⟩ := bind_eq_ok_iff.1 h
    cases h
  | last | position | string | concat | startsWith | endsWith | contains | substringBefore
  | substringAfter | stringLength | normalizeSpace | translate | true | false | lang | number =>
    cases h

/-- No binary operation has a node-set for its value, whether it looks at both operands or not. -/
lemma evaluate_binary_ne_nodes (op : BinaryOp) (l r : Expr resolved) (focus : Focus)
    (is : List NodeId) : (Expr.binary op l r).evaluate d focus ≠ .ok (.nodes is) := by
  intro h
  cases op with
  | or =>
    rw [Expr.evaluate] at h
    obtain ⟨_, -, h⟩ := bind_eq_ok_iff.1 h
    split at h
    · cases h
    · obtain ⟨_, -, h⟩ := bind_eq_ok_iff.1 h
      cases h
  | and =>
    rw [Expr.evaluate] at h
    obtain ⟨_, -, h⟩ := bind_eq_ok_iff.1 h
    split at h
    · obtain ⟨_, -, h⟩ := bind_eq_ok_iff.1 h
      cases h
    · cases h
  | eq | ne | lt | le | gt | ge | add | sub | mul | div | mod =>
    rw [Expr.evaluate] at h
    · obtain ⟨_, -, h⟩ := bind_eq_ok_iff.1 h
      obtain ⟨_, -, h⟩ := bind_eq_ok_iff.1 h
      exact apply_ne_nodes _ _ _ _ (pure_eq_ok_iff.1 h)
    all_goals simp

/-- A value that is read as a node-set is one. -/
lemma toNodes_eq_ok_iff {v : Value} {is : List NodeId} : v.toNodes = .ok is ↔ v = .nodes is := by
  cases v <;> simp [Value.toNodes]

/-- **A node-set is in document order**, and no node is in it twice.

**Proof sketch.** Induction on the expression. A union is put in order, a filter drops nodes from a
node-set that is in order, and a path starts from one node or from a node-set that is in order. No
other expression has a node-set for its value. -/
lemma evaluate_sorted : ∀ {e : Expr resolved} {focus : Focus} {is : List NodeId},
    e.evaluate d focus = .ok (.nodes is) → is.Pairwise (· < ·)
  | .literal _, _, _, h => by
    rw [Expr.evaluate] at h
    cases h
  | .number _, _, _, h => by
    rw [Expr.evaluate] at h
    cases h
  | .reference name, _, _, _ => nomatch name
  | .call f vs, _, _, h => by
    rw [Expr.evaluate] at h
    obtain ⟨_, -, h⟩ := bind_eq_ok_iff.1 h
    exact absurd h (call_ne_nodes _ _ _ _)
  | .binary op l r, _, _, h => absurd h (evaluate_binary_ne_nodes op l r _ _)
  | .negate _, _, _, h => by
    rw [Expr.evaluate] at h
    obtain ⟨_, -, h⟩ := bind_eq_ok_iff.1 h
    cases h
  | .union l r, _, _, h => by
    rw [Expr.evaluate] at h
    obtain ⟨_, -, h⟩ := bind_eq_ok_iff.1 h
    obtain ⟨_, -, h⟩ := bind_eq_ok_iff.1 h
    obtain ⟨_, -, h⟩ := bind_eq_ok_iff.1 h
    obtain ⟨_, -, h⟩ := bind_eq_ok_iff.1 h
    cases h
    exact inOrder_sorted _
  | .filter primary ps, _, _, h => by
    rw [Expr.evaluate] at h
    obtain ⟨v, hv, h⟩ := bind_eq_ok_iff.1 h
    obtain ⟨is, his, h⟩ := bind_eq_ok_iff.1 h
    obtain ⟨js, hjs, h⟩ := bind_eq_ok_iff.1 h
    cases h
    rw [toNodes_eq_ok_iff.1 his] at hv
    exact (evaluate_sorted hv).sublist (keepAll_sublist hjs)
  | .path start ss, _, _, h => by
    rw [Expr.evaluate] at h
    obtain ⟨is, his, h⟩ := bind_eq_ok_iff.1 h
    obtain ⟨js, hjs, h⟩ := bind_eq_ok_iff.1 h
    cases h
    refine follow_sorted ?_ hjs
    match start with
    | .root | .context =>
      rw [Start.evaluate] at his
      cases his
      exact List.pairwise_singleton _ _
    | .expr e =>
      rw [Start.evaluate] at his
      obtain ⟨v, hv, his⟩ := bind_eq_ok_iff.1 his
      rw [toNodes_eq_ok_iff.1 his] at hv
      exact evaluate_sorted hv

end XmlHarvest.Query
