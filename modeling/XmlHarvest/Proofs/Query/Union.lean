import Mathlib.Data.List.Basic
import XmlHarvest.Proofs.Query.Distribution

/-!
# Unions

The nodes of a union are put in order, so the union of two lists is told by its members: nodes in
order without repetition are one list only. The laws of sets therefore hold for lists of nodes as
they come out of evaluation, provided that the lists that go into it are in order themselves, as
every node-set is.

A union needs a node-set on both sides. Which fault is reported may depend on the order of the
sides, as the left one is evaluated first, but not on how unions of unions are grouped.

## Main results

* `Query.inOrder_congr`: nodes that are put in order depend on the members only.
* `Query.evaluate_union_eq_ok_iff`: the value of a union.
* `Query.union_laws`: unions are set unions.
-/

namespace XmlHarvest.Query

/-! ## Lists with the same members -/

/-- Nodes that are put in order depend on which nodes there are, not on their order before or on how
often they occurred. -/
lemma inOrder_congr {is js : List NodeId} (h : ∀ k, k ∈ is ↔ k ∈ js) : inOrder is = inOrder js :=
  (inOrder_sorted is).eq_of_mem_iff (inOrder_sorted js) fun k => by rw [mem_inOrder, mem_inOrder, h]

/-- It does not matter which of two lists comes first. -/
lemma inOrder_append_comm (is js : List NodeId) : inOrder (is ++ js) = inOrder (js ++ is) :=
  inOrder_congr fun k => by rw [List.mem_append, List.mem_append, or_comm]

/-- Of three lists any two may be put in order before the third one is added. -/
lemma inOrder_append_assoc (is js ks : List NodeId) :
    inOrder (inOrder (is ++ js) ++ ks) = inOrder (is ++ inOrder (js ++ ks)) :=
  inOrder_congr fun k => by simp only [List.mem_append, mem_inOrder, or_assoc]

/-- Nodes in order are their own union with themselves. -/
lemma inOrder_append_self {is : List NodeId} (h : is.Pairwise (· < ·)) :
    inOrder (is ++ is) = is := by
  have hmem : ∀ k, k ∈ is ++ is ↔ k ∈ is := fun k => by rw [List.mem_append, or_self]
  rw [inOrder_congr hmem, inOrder_eq_self h]

/-! ## The value of a union -/

variable {d : Document} {focus : Focus} {a b c : Expr resolved}

/-- A union puts the nodes of both sides in order. -/
lemma evaluate_union : (Expr.union a b).evaluate d focus = do
    let is ← a.evaluateNodes d focus
    let js ← b.evaluateNodes d focus
    return .nodes (inOrder (is ++ js)) := by
  rw [Expr.evaluate]
  simp only [Expr.evaluateNodes, bind_assoc]

/-- The nodes of a union are its value. -/
lemma evaluateNodes_union : (Expr.union a b).evaluateNodes d focus = do
    let is ← a.evaluateNodes d focus
    let js ← b.evaluateNodes d focus
    return inOrder (is ++ js) := by
  rw [Expr.evaluateNodes, evaluate_union]
  simp only [bind_assoc, pure_bind]
  rfl

/-- **The value of a union**: both sides have a node-set for their value, and these are united. -/
lemma evaluate_union_eq_ok_iff {v : Value} : (Expr.union a b).evaluate d focus = .ok v ↔
    ∃ is js, a.evaluate d focus = .ok (.nodes is) ∧ b.evaluate d focus = .ok (.nodes js) ∧
      v = .nodes (inOrder (is ++ js)) := by
  simp only [← evaluateNodes_eq_ok_iff]
  rw [evaluate_union, bind_eq_ok_iff]
  refine exists_congr fun is => ?_
  rw [bind_eq_ok_iff, ← exists_and_left]
  refine exists_congr fun js => and_congr_right fun _ => and_congr_right fun _ => ?_
  rw [pure_eq_ok_iff, eq_comm]

/-- A union fails if one of its sides has no node-set for its value. -/
lemma evaluate_union_fails_iff : (∃ fault, (Expr.union a b).evaluate d focus = .error fault) ↔
    (∀ is, a.evaluate d focus ≠ .ok (.nodes is)) ∨ ∀ js, b.evaluate d focus ≠ .ok (.nodes js) := by
  rw [exists_error_iff]
  simp only [ne_eq, evaluate_union_eq_ok_iff]
  grind

/-- Unions of unions are the same in every grouping, faults included. -/
lemma evaluate_union_assoc : (Expr.union (.union a b) c).evaluate d focus =
    (Expr.union a (.union b c)).evaluate d focus := by
  rw [evaluate_union, evaluate_union, evaluateNodes_union, evaluateNodes_union]
  simp only [bind_assoc, pure_bind, inOrder_append_assoc]

/-- **Unions are set unions.** In every document and every focus, a union fails exactly if one of
its sides fails or has another value than a node-set. Otherwise its nodes are those of either side,
in document order and none twice. So the sides may be exchanged, unions of unions may be grouped in
either way, and the union of an expression with itself has the nodes of the expression.

**Proof sketch.** Nodes that are put in order depend on their members only (`inOrder_congr`), so the
laws are those of membership in lists that are joined. The last one needs that the nodes of an
expression are in order already (`evaluate_sorted`). In both groupings of three expressions these
are evaluated from left to right, so that grouping does not change the fault either
(`evaluate_union_assoc`). -/
theorem union_laws (d : Document) (focus : Focus) (a b c : Expr resolved) :
    ((∃ fault, (Expr.union a b).evaluate d focus = .error fault) ↔
      (∀ is, a.evaluate d focus ≠ .ok (.nodes is)) ∨ ∀ js, b.evaluate d focus ≠ .ok (.nodes js)) ∧
    (∀ is js, a.evaluate d focus = .ok (.nodes is) → b.evaluate d focus = .ok (.nodes js) →
      ∃ ks, (Expr.union a b).evaluate d focus = .ok (.nodes ks) ∧ ks.Pairwise (· < ·) ∧
        ∀ k, k ∈ ks ↔ k ∈ is ∨ k ∈ js) ∧
    (∀ v, (Expr.union a b).evaluate d focus = .ok v ↔ (Expr.union b a).evaluate d focus = .ok v) ∧
    (Expr.union (.union a b) c).evaluate d focus = (Expr.union a (.union b c)).evaluate d focus ∧
    ∀ is, a.evaluate d focus = .ok (.nodes is) →
      (Expr.union a a).evaluate d focus = .ok (.nodes is) := by
  refine ⟨evaluate_union_fails_iff, fun is js ha hb => ?_, fun v => ?_, evaluate_union_assoc,
    fun is ha => ?_⟩
  · refine ⟨_, evaluate_union_eq_ok_iff.2 ⟨is, js, ha, hb, rfl⟩, inOrder_sorted _, fun k => ?_⟩
    rw [mem_inOrder, List.mem_append]
  · rw [evaluate_union_eq_ok_iff, evaluate_union_eq_ok_iff, exists_comm]
    refine exists_congr fun js => exists_congr fun is => ?_
    rw [inOrder_append_comm, and_left_comm]
  · have his : inOrder (is ++ is) = is := inOrder_append_self (evaluate_sorted ha)
    exact evaluate_union_eq_ok_iff.2 ⟨is, is, ha, ha, by rw [his]⟩

/-- Two node-sets that overlap, the second of which begins before the first one. -/
theorem union_laws_overlap : ∃ (d : Document) (p q : Compiled),
    Document.parse "<r><b/><a><b/></a></r>" = .ok d ∧
      compile .initial "/r/a/descendant-or-self::*" = .ok p ∧ compile .initial "//b" = .ok q ∧
      p.root.evaluate d ⟨Document.root, 1, 1⟩ = .ok (.nodes [3, 4]) ∧
      q.root.evaluate d ⟨Document.root, 1, 1⟩ = .ok (.nodes [2, 4]) ∧
      (Expr.union p.root q.root).evaluate d ⟨Document.root, 1, 1⟩ = .ok (.nodes [2, 3, 4]) ∧
      (Expr.union p.root p.root).evaluate d ⟨Document.root, 1, 1⟩ = .ok (.nodes [3, 4]) := by
  have h : ((Document.parse "<r><b/><a><b/></a></r>").toOption.bind fun d =>
      (compile .initial "/r/a/descendant-or-self::*").toOption.bind fun p =>
        (compile .initial "//b").toOption.map fun q =>
          ((p.evaluateNodes d Document.root).toOption,
            (q.evaluateNodes d Document.root).toOption)) =
      some (some [3, 4], some [2, 4]) := by cbv
  obtain ⟨d, hd, h⟩ := Option.bind_eq_some_iff.1 h
  obtain ⟨p, hp, h⟩ := Option.bind_eq_some_iff.1 h
  obtain ⟨q, hq, h⟩ := Option.map_eq_some_iff.1 h
  obtain ⟨his, hjs⟩ := Prod.mk.inj h
  have hpnodes : p.root.evaluate d ⟨Document.root, 1, 1⟩ = .ok (.nodes [3, 4]) :=
    evaluateNodes_eq_ok_iff.1 (toOption_eq_some_iff.1 his)
  have hqnodes : q.root.evaluate d ⟨Document.root, 1, 1⟩ = .ok (.nodes [2, 4]) :=
    evaluateNodes_eq_ok_iff.1 (toOption_eq_some_iff.1 hjs)
  obtain ⟨-, hunion, -, -, hself⟩ := union_laws d ⟨Document.root, 1, 1⟩ p.root q.root q.root
  obtain ⟨ks, hks, hsorted, hmem⟩ := hunion _ _ hpnodes hqnodes
  have hall : ks = [2, 3, 4] := by
    refine hsorted.eq_of_mem_iff (by simp) fun k => ?_
    rw [hmem]
    simp only [List.mem_cons, List.not_mem_nil, or_false]
    grind
  exact ⟨d, p, q, toOption_eq_some_iff.1 hd, toOption_eq_some_iff.1 hp, toOption_eq_some_iff.1 hq,
    hpnodes, hqnodes, hall ▸ hks, hself _ hpnodes⟩

end XmlHarvest.Query
